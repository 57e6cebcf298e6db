import VhalCore.Models.PendingRequests.Interpretation.System
import VhalCore.Models.VehicleHal.Native.Requests

/-!
# Runs of the read and write calls

A call of `getValues` or `setValues` is a thread. It checks its requests, finds or
creates the object of its client under the lock of the service, registers the ids of
the requests for the hardware in the pool, answers the failed requests and calls the
hardware. Every use of a lock is one step, with what the thread does up to its next
one; in between any other thread may move: another call, a result callback that the
hardware holds, the sweep of the pool, the death of a client.

The objects of clients are numbered, and so are the calls. A callback remembers the
object that made it and the pool the call that registered a request, so that a reply
can be told to answer a call. The code keeps none of these numbers; it knows an object
by its address, and an address may be used again when its object is gone.
-/

namespace VhalCore.VehicleHal

open PendingRequests PendingRequestPool

/-- The identity of a client: the binder of its callback. -/
abbrev Binder := Nat

/-- A `GetValuesClient` or a `SetValuesClient`, also as captured by its callbacks. -/
structure ConnectedClient where
  object : Nat
  /-- The address of the object, the key of its requests in the pool. -/
  id : ClientId
  kind : RequestKind
  callback : Binder
  deriving DecidableEq

/-- The callback that a call leaves in the pool. -/
structure TimeoutCallback where
  call : Nat
  client : ConnectedClient
  deriving DecidableEq

/-- The errors that a call returns. -/
inductive CallError where
  /-- `duplicate request for property: {}`, with `INVALID_ARG` -/
  | duplicateProperty (value : VehiclePropValue)
  /-- `client died`, with `EX_TRANSACTION_FAILED` -/
  | clientDied
  | addRequests (e : AddError)
  /-- `failed to get value from VehicleHardware`, `failed to set value to VehicleHardware` -/
  | hardware (status : StatusCode)
  deriving DecidableEq

/-- How far a call has come. -/
inductive Stage where
  | validated
  | connected (client : ConnectedClient)
  | registered (client : ConnectedClient)
  | forwarded (client : ConnectedClient)
  | returned (result : Except CallError Unit)

/-- The client object that a call refers to. -/
def Stage.client : Stage → Option ConnectedClient
  | .connected client | .registered client | .forwarded client => some client
  | _ => none

/-- The result with which a call has returned. -/
def Stage.result : Stage → Option (Except CallError Unit)
  | .returned result => some result
  | _ => none

/-- A call with its requests and what the checks made of them. -/
structure Call where
  kind : RequestKind
  callback : Binder
  requests : List ValueRequest
  failedResults : List ValueResult := []
  hardwareRequests : List ValueRequest := []
  stage : Stage

/-- A call in a stage without a result has not returned. -/
theorem running_of_stage {call : Call} {stage : Stage} (hstage : call.stage = stage)
    (hresult : stage.result = none) (r : Except CallError Unit) : call.stage ≠ .returned r := by
  rintro hr
  rw [← hstage, hr] at hresult
  cases hresult

/-- The ids that a call registers. -/
def Call.ids (call : Call) : Finset Int := hardwareRequestIds call.hardwareRequests

/-- Where the results of a reply come from. -/
inductive Origin where
  | validation
  | hardware
  | timeout
  deriving DecidableEq

/-- One invocation of a client callback: the results, each with the call it answers. -/
structure Reply where
  origin : Origin
  kind : RequestKind
  callback : Binder
  answers : List (Nat × ValueResult)

/-- The payloads that the client receives. -/
def Reply.results (reply : Reply) : List ValueResult := reply.answers.map Prod.snd

/-- The service with its pool, its client objects, the result callbacks that the hardware
holds, its calls and the replies it has sent. -/
structure HalState where
  pool : PoolSystem TimeoutCallback
  clients : RequestKind → UnorderedMap Binder ConnectedClient := fun _ => ∅
  mOnBinderDiedContexts : Finset Binder := ∅
  resultCallbacks : List ConnectedClient := []
  calls : Nat → Option Call := fun _ => none
  nextCall : Nat := 0
  nextObject : Nat := 0
  replies : List Reply := []

/-- What happens in a step. -/
inductive HalEvent where
  | reject (call : Nat) (kind : RequestKind) (requests : List ValueRequest)
  | receive (call : Nat) (kind : RequestKind) (requests hardwareRequests : List ValueRequest)
  | clientDied (call : Nat)
  | connect (call : Nat) (client : ConnectedClient)
  | create (call : Nat) (client : ConnectedClient)
  | register (call : Nat) (client : ConnectedClient) (result : Except AddError Unit)
  | forward (call : Nat)
  | complete (call : Nat)
  | refuse (call : Nat) (status : StatusCode)
  | report (client : ConnectedClient) (results : List ValueResult) (foundIds : Finset Int)
  | release (client : ConnectedClient)
  | sweep
  | timeout (call : Nat) (requestIds : Finset Int)
  | binderDied (callback : Binder)
  | binderUnlinked (callback : Binder)
  | destroy

namespace HalState

/-- An object that something still refers to. -/
def Live (s : HalState) (client : ConnectedClient) : Prop :=
  (∃ kind callback, (s.clients kind).lookup callback = some client) ∨
    ∃ k call, s.calls k = some call ∧ call.stage.client = some client

/-- The call that a pending id was registered by. -/
def callOf (s : HalState) (c : ClientId) (requestId : Int) : Nat :=
  (((s.pool.pool.pendingOf c).find? fun p => requestId ∈ p.requestIds).map
    fun p => p.callback.2.call).getD 0

/-- A reply, unless there is nothing to send. -/
def send (s : HalState) (origin : Origin) (client : ConnectedClient)
    (answers : List (Nat × ValueResult)) : List Reply :=
  if answers = [] then s.replies else s.replies ++ [⟨origin, client.kind, client.callback, answers⟩]

/-- A call goes on. -/
def advance (s : HalState) (k : Nat) (call : Call) (stage : Stage) : HalState :=
  { s with calls := Function.update s.calls k (some { call with stage := stage }) }

/-- A call comes in. -/
def enter (s : HalState) (call : Call) : HalState :=
  { s with calls := Function.update s.calls s.nextCall (some call), nextCall := s.nextCall + 1 }

/-- The first call of a client creates its object. -/
def create (s : HalState) (k : Nat) (call : Call) (client : ConnectedClient) : HalState :=
  { s.advance k call (.connected client) with
    mOnBinderDiedContexts := insert call.callback s.mOnBinderDiedContexts
    clients := Function.update s.clients call.kind
      ((s.clients call.kind).insert call.callback client)
    nextObject := s.nextObject + 1 }

theorem calls_enter (s : HalState) (call : Call) (j : Nat) :
    (s.enter call).calls j = if j = s.nextCall then some call else s.calls j :=
  Function.update_apply ..

theorem calls_advance (s : HalState) (k : Nat) (call : Call) (stage : Stage) (j : Nat) :
    (s.advance k call stage).calls j =
      if j = k then some { call with stage := stage } else s.calls j :=
  Function.update_apply ..

/-- A service that has just been created. -/
def start (timeoutInNano clock : Int) : HalState where
  pool := .start timeoutInNano clock

end HalState

open HalState

/-- One step. Where the result of a check is undefined, any result is possible. The address of
a new object is any that no object in use has. The pool is destroyed with its last user. -/
inductive HalStep : HalState → HalEvent → HalState → Prop
  | reject (s : HalState) (kind : RequestKind) (callback : Binder) (requests : List ValueRequest)
      (value : VehiclePropValue)
      (h : ∀ r, checkDuplicateRequests requests = some r → r = .error value) :
      HalStep s (.reject s.nextCall kind requests)
        (s.enter ⟨kind, callback, requests, [], [], .returned (.error (.duplicateProperty value))⟩)
  | receive (s : HalState) (kind : RequestKind) (callback : Binder) (requests : List ValueRequest)
      (getConfig : ConfigSource) (check : ValueRequest → Except StatusCode Unit)
      (h : ∀ r, checkDuplicateRequests requests = some r → ∃ ids, r = .ok ids)
      (hcheck : ∀ request c, checkRequest kind getConfig request = some c → check request = c) :
      HalStep s (.receive s.nextCall kind requests (splitRequests check requests).2)
        (s.enter ⟨kind, callback, requests, (splitRequests check requests).1,
          (splitRequests check requests).2, .validated⟩)
  | clientDied (s : HalState) (k : Nat) (call : Call) (hcall : s.calls k = some call)
      (hstage : call.stage = .validated) :
      HalStep s (.clientDied k)
        { s.advance k call (.returned (.error .clientDied)) with
          mOnBinderDiedContexts := insert call.callback s.mOnBinderDiedContexts }
  | connect (s : HalState) (k : Nat) (call : Call) (client : ConnectedClient)
      (hcall : s.calls k = some call) (hstage : call.stage = .validated)
      (hclient : (s.clients call.kind).lookup call.callback = some client) :
      HalStep s (.connect k client)
        { s.advance k call (.connected client) with
          mOnBinderDiedContexts := insert call.callback s.mOnBinderDiedContexts }
  | create (s : HalState) (k : Nat) (call : Call) (address : ClientId)
      (hcall : s.calls k = some call) (hstage : call.stage = .validated)
      (hclient : (s.clients call.kind).lookup call.callback = none)
      (hfree : ∀ other, s.Live other → other.id ≠ address) :
      HalStep s (.create k ⟨s.nextObject, address, call.kind, call.callback⟩)
        (s.create k call ⟨s.nextObject, address, call.kind, call.callback⟩)
  | registerFailed (s : HalState) (k : Nat) (call : Call) (client : ConnectedClient) (n : Nat)
      (time : Int) (e : AddError) (pool : PoolSystem TimeoutCallback)
      (hcall : s.calls k = some call) (hstage : call.stage = .connected client)
      (hpool : PoolStep s.pool
        (.addRequests n client.id call.ids ⟨k, client⟩ time (.error e)) pool) :
      HalStep s (.register k client (.error e))
        { s.advance k call (.returned (.error (.addRequests e))) with pool := pool }
  | register (s : HalState) (k : Nat) (call : Call) (client : ConnectedClient) (n : Nat)
      (time : Int) (pool : PoolSystem TimeoutCallback)
      (hcall : s.calls k = some call) (hstage : call.stage = .connected client)
      (hpool : PoolStep s.pool
        (.addRequests n client.id call.ids ⟨k, client⟩ time (.ok ())) pool) :
      HalStep s (.register k client (.ok ()))
        { s.advance k call
            (if call.hardwareRequests = [] then .returned (.ok ()) else .registered client) with
          pool := pool
          replies := s.send .validation client (call.failedResults.map fun r => (k, r)) }
  | forward (s : HalState) (k : Nat) (call : Call) (client : ConnectedClient)
      (hcall : s.calls k = some call) (hstage : call.stage = .registered client) :
      HalStep s (.forward k)
        { s.advance k call (.forwarded client) with
          resultCallbacks := client :: s.resultCallbacks }
  | complete (s : HalState) (k : Nat) (call : Call) (client : ConnectedClient)
      (hcall : s.calls k = some call) (hstage : call.stage = .forwarded client) :
      HalStep s (.complete k) (s.advance k call (.returned (.ok ())))
  | refuse (s : HalState) (k : Nat) (call : Call) (client : ConnectedClient) (status : StatusCode)
      (foundIds : Finset Int) (pool : PoolSystem TimeoutCallback)
      (hcall : s.calls k = some call) (hstage : call.stage = .forwarded client)
      (hstatus : status ≠ .ok)
      (hpool : PoolStep s.pool (.tryFinishRequests client.id call.ids foundIds) pool) :
      HalStep s (.refuse k status)
        { s.advance k call (.returned (.error (.hardware status))) with pool := pool }
  | report (s : HalState) (client : ConnectedClient) (results : List ValueResult)
      (foundIds : Finset Int) (pool : PoolSystem TimeoutCallback)
      (hheld : client ∈ s.resultCallbacks)
      (hpool : PoolStep s.pool
        (.tryFinishRequests client.id (resultIds results) foundIds) pool) :
      HalStep s (.report client results foundIds)
        { s with
          pool := pool
          replies := s.send .hardware client ((getOrSetValuesCallback foundIds results).map
            fun r => (s.callOf client.id r.requestId, r)) }
  | release (s : HalState) (client : ConnectedClient) :
      HalStep s (.release client)
        { s with resultCallbacks := s.resultCallbacks.erase client }
  | sweep (s : HalState) (time : Int) (pool : PoolSystem TimeoutCallback)
      (hpool : PoolStep s.pool (.checkTimeout time) pool) :
      HalStep s .sweep { s with pool := pool }
  | timeout (s : HalState) (order : Traversal Int) (n : Nat) (callback : TimeoutCallback)
      (requestIds : Finset Int) (time : Option Int) (pool : PoolSystem TimeoutCallback)
      (hpool : PoolStep s.pool (.invoke n callback requestIds time) pool) :
      HalStep s (.timeout callback.call requestIds)
        { s with
          pool := pool
          replies := s.replies ++ [⟨.timeout, callback.client.kind, callback.client.callback,
            (onTimeout order requestIds).map fun r => (callback.call, r)⟩] }
  | binderDied (s : HalState) (callback : Binder) (hcontext : callback ∈ s.mOnBinderDiedContexts) :
      HalStep s (.binderDied callback)
        { s with clients := fun kind => (s.clients kind).erase callback }
  | binderUnlinked (s : HalState) (callback : Binder) :
      HalStep s (.binderUnlinked callback)
        { s with mOnBinderDiedContexts := s.mOnBinderDiedContexts.erase callback }
  | destroy (s : HalState) (pool : PoolSystem TimeoutCallback)
      (hcalls : ∀ k call, s.calls k = some call → ∃ r, call.stage = .returned r)
      (hreleased : s.resultCallbacks = []) (hpool : PoolStep s.pool .destroy pool) :
      HalStep s .destroy { s with pool := pool }

/-- What the checks say about a request, where they say something. -/
def checkedBy (kind : RequestKind) (getConfig : ConfigSource) (request : ValueRequest) :
    Except StatusCode Unit :=
  (checkRequest kind getConfig request).getD (.ok ())

/-- A call without a duplicate property is received, with the checks as they come out. -/
theorem HalStep.receive_checked (s : HalState) (kind : RequestKind) (callback : Binder)
    {requests : List ValueRequest} (getConfig : ConfigSource) (ids : List Int)
    (h : checkDuplicateRequests requests = some (.ok ids)) :
    HalStep s (.receive s.nextCall kind requests
        (splitRequests (checkedBy kind getConfig) requests).2)
      (s.enter ⟨kind, callback, requests, (splitRequests (checkedBy kind getConfig) requests).1,
        (splitRequests (checkedBy kind getConfig) requests).2, .validated⟩) := by
  refine .receive s kind callback requests getConfig (checkedBy kind getConfig) ?_ ?_
  · intro r hr
    cases h.symm.trans hr
    exact ⟨ids, rfl⟩
  · intro request c hc
    rw [checkedBy, hc, Option.getD_some]

/-- A step of the service is one of its pool or leaves the pool alone. -/
theorem HalStep.pool {s t : HalState} {e : HalEvent} (h : HalStep s e t) :
    t.pool = s.pool ∨ ∃ e', PoolStep s.pool e' t.pool := by
  cases h with
  | registerFailed k call client n time e pool hcall hstage hpool => exact Or.inr ⟨_, hpool⟩
  | register k call client n time pool hcall hstage hpool => exact Or.inr ⟨_, hpool⟩
  | refuse k call client status foundIds pool hcall hstage hstatus hpool => exact Or.inr ⟨_, hpool⟩
  | report client results foundIds pool hheld hpool => exact Or.inr ⟨_, hpool⟩
  | sweep time pool hpool => exact Or.inr ⟨_, hpool⟩
  | timeout order n callback requestIds time pool hpool => exact Or.inr ⟨_, hpool⟩
  | destroy pool hcalls hreleased hpool => exact Or.inr ⟨_, hpool⟩
  | _ => exact Or.inl rfl

/-- What a step does to a call: nothing, or it comes in, turned away or checked, or it goes on
and had not returned before. -/
theorem HalStep.call_cases {s t : HalState} {e : HalEvent} (h : HalStep s e t) (k : Nat) :
    s.nextCall ≤ t.nextCall ∧
      (t.calls k = s.calls k ∨
        (k = s.nextCall ∧ t.nextCall = s.nextCall + 1 ∧ ∃ call, t.calls k = some call ∧
          ((∃ v, call.stage = .returned (.error (.duplicateProperty v))) ∨
            e = .receive k call.kind call.requests call.hardwareRequests ∧
              ∃ check, (call.failedResults, call.hardwareRequests) =
                splitRequests check call.requests)) ∨
        ∃ call stage, s.calls k = some call ∧ (∀ r, call.stage ≠ .returned r) ∧
          t.calls k = some { call with stage := stage }) := by
  have hadvanced {j : Nat} {call : Call} {stage : Stage} (hcall : s.calls j = some call)
      (hrunning : ∀ r, call.stage ≠ .returned r)
      (hcalls : t.calls = (s.advance j call stage).calls) :
      t.calls k = s.calls k ∨ ∃ call stage, s.calls k = some call ∧
        (∀ r, call.stage ≠ .returned r) ∧ t.calls k = some { call with stage := stage } := by
    rw [hcalls, calls_advance]
    split
    · next hk => exact Or.inr ⟨call, stage, hk ▸ hcall, hrunning, rfl⟩
    · exact Or.inl rfl
  cases h with
  | reject kind callback requests value hdup =>
      refine ⟨Nat.le_succ _, ?_⟩
      rw [calls_enter]
      split
      · next hk => exact Or.inr (Or.inl ⟨hk, rfl, _, rfl, Or.inl ⟨value, rfl⟩⟩)
      · exact Or.inl rfl
  | receive kind callback requests getConfig check hdup hcheck =>
      refine ⟨Nat.le_succ _, ?_⟩
      rw [calls_enter]
      split
      · next hk =>
        subst hk
        exact Or.inr (Or.inl ⟨rfl, rfl, _, rfl, Or.inr ⟨rfl, check, rfl⟩⟩)
      · exact Or.inl rfl
  | clientDied j call hcall hstage =>
      exact ⟨le_rfl, (hadvanced hcall (running_of_stage hstage rfl) rfl).imp_right Or.inr⟩
  | connect j call client hcall hstage hclient =>
      exact ⟨le_rfl, (hadvanced hcall (running_of_stage hstage rfl) rfl).imp_right Or.inr⟩
  | create j call address hcall hstage hclient hfree =>
      exact ⟨le_rfl, (hadvanced hcall (running_of_stage hstage rfl) rfl).imp_right Or.inr⟩
  | registerFailed j call client n time error pool hcall hstage hpool =>
      exact ⟨le_rfl, (hadvanced hcall (running_of_stage hstage rfl) rfl).imp_right Or.inr⟩
  | register j call client n time pool hcall hstage hpool =>
      exact ⟨le_rfl, (hadvanced hcall (running_of_stage hstage rfl) rfl).imp_right Or.inr⟩
  | forward j call client hcall hstage =>
      exact ⟨le_rfl, (hadvanced hcall (running_of_stage hstage rfl) rfl).imp_right Or.inr⟩
  | complete j call client hcall hstage =>
      exact ⟨le_rfl, (hadvanced hcall (running_of_stage hstage rfl) rfl).imp_right Or.inr⟩
  | refuse j call client status foundIds pool hcall hstage hstatus hpool =>
      exact ⟨le_rfl, (hadvanced hcall (running_of_stage hstage rfl) rfl).imp_right Or.inr⟩
  | _ => exact ⟨le_rfl, Or.inl rfl⟩

/-- The pool of a service that runs is a pool that runs. -/
theorem pool_of_run {R : HalState → HalEvent → HalState → Prop} {timeoutInNano clock : Int}
    {events : List HalEvent} {s : HalState} (h : Path R (.start timeoutInNano clock) events s)
    (hR : ∀ s e t, R s e t → HalStep s e t) :
    ∃ poolEvents, Path PoolStep (.start timeoutInNano clock) poolEvents s.pool := by
  induction h with
  | nil => exact ⟨[], .nil _⟩
  | snoc _ hstep ih =>
      obtain ⟨poolEvents, hpath⟩ := ih
      rcases (hR _ _ _ hstep).pool with hsame | ⟨e', hpool⟩
      · exact ⟨poolEvents, by rw [hsame]; exact hpath⟩
      · exact ⟨poolEvents ++ [e'], hpath.snoc hpool⟩

/-- A config source that knows every property and allows every access. -/
def permissive : ConfigSource := fun propId => .ok { prop := propId, access := .readWrite }

/-- The object of the first client of a service. -/
def firstClient (address : ClientId) (call : Call) : ConnectedClient :=
  ⟨0, address, call.kind, call.callback⟩

/-- A service with its first call, which has just found its client. -/
def firstConnected (timeoutInNano : Int) (address : ClientId) (call : Call) : HalState :=
  ((start timeoutInNano 0).enter call).create 0 call (firstClient address call)

/-- A service with its first call, which has just registered its requests. -/
def firstRegistered (timeoutInNano : Int) (address : ClientId) (call : Call)
    (pool : PendingRequestPool (Nat × TimeoutCallback)) : HalState :=
  { (firstConnected timeoutInNano address call).advance 0
      { call with stage := .connected (firstClient address call) }
      (if call.hardwareRequests = [] then .returned (.ok ())
        else .registered (firstClient address call)) with
    pool := ⟨pool, 0, 1, [], false⟩
    replies := send (start timeoutInNano 0) .validation (firstClient address call)
      (call.failedResults.map fun r => (0, r)) }

/-- The first call of a service connects at any address. -/
theorem firstConnected_step (timeoutInNano : Int) (address : ClientId) (call : Call)
    (hstage : call.stage = .validated) :
    HalStep ((start timeoutInNano 0).enter call) (.create 0 (firstClient address call))
      (firstConnected timeoutInNano address call) := by
  refine .create _ 0 call address rfl hstage (Finmap.lookup_empty _) ?_
  rintro other (⟨kind, callback, hlookup⟩ | ⟨k, call', hcall, hclient⟩)
  · exact absurd (hlookup.symm.trans (Finmap.lookup_empty _)) nofun
  · rw [calls_enter] at hcall
    split at hcall
    · cases hcall
      rw [hstage] at hclient
      cases hclient
    · cases hcall

/-- The requests of the first call are registered. -/
theorem firstRegistered_step (timeoutInNano : Int) (address : ClientId) (call : Call)
    (order : Traversal Int) (pool : PendingRequestPool (Nat × TimeoutCallback))
    (hadd : addRequests order 0 address call.ids (0, ⟨0, firstClient address call⟩)
      ⟨timeoutInNano, ∅⟩ = (.ok (), pool)) :
    HalStep (firstConnected timeoutInNano address call)
      (.register 0 (firstClient address call) (.ok ()))
      (firstRegistered timeoutInNano address call pool) :=
  .register (firstConnected timeoutInNano address call) 0
    { call with stage := .connected (firstClient address call) } (firstClient address call) 0 0
    ⟨pool, 0, 1, [], false⟩ rfl rfl
    (.addRequests (.start timeoutInNano 0) order address call.ids
      (⟨0, firstClient address call⟩ : TimeoutCallback) 0 (.ok ()) pool rfl le_rfl hadd)

end VhalCore.VehicleHal
