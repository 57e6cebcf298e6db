import VhalCore.Core.UnorderedMap
import VhalCore.Models.Vehicle.Types

/-!
# The pool of pending requests

The pool keeps, for each client, a list of groups of request ids. A group is added
by one call, loses its ids as they are finished and is dropped with its last id or
when its time is over. The pool is generic in the type of the timeout callbacks: it
stores them and hands them back, and never looks at them.
-/

namespace VhalCore.PendingRequests

/-- Addition of the type `size_t`. -/
def sizeAdd (a b : Nat) : Nat := (a + b) % 2 ^ 64

/-- Subtraction of the type `size_t`, which wraps around. -/
def sizeSub (a b : Nat) : Nat := (a + 2 ^ 64 - b) % 2 ^ 64

/-- `MAX_PENDING_REQUEST_PER_CLIENT` -/
def maxPendingRequestPerClient : Nat := 10000

/-- The key of a client: the address of the object that represents it. -/
abbrev ClientId := Nat

/-- The request ids of one call that are still pending. -/
structure PendingRequest (κ : Type) where
  requestIds : Finset Int
  timeoutTimestamp : Int
  callback : κ

/-- The pending requests of every client, in the order in which they were added. -/
structure PendingRequestPool (κ : Type) where
  mTimeoutInNano : Int
  mPendingRequestsByClient : UnorderedMap ClientId (List (PendingRequest κ)) := ∅

/-- The errors of `addRequests`. -/
inductive AddError where
  /-- `duplicate request ID: {}` -/
  | duplicateRequestId (requestId : Int)
  /-- `too many pending requests` -/
  | tooManyPendingRequests
  deriving DecidableEq

namespace PendingRequestPool

variable {κ : Type}

/-- The loop of `addRequests` over the pending requests of the client: the number of their
ids, or the first id of the new request that it meets among them. -/
def countPendingLoop (order : Traversal Int) (requestIds : Finset Int) :
    Nat → List (PendingRequest κ) → Except AddError Nat
  | pendingRequestCount, [] => .ok pendingRequestCount
  | pendingRequestCount, pendingRequest :: rest =>
      match (order.visit requestIds).find? (· ∈ pendingRequest.requestIds) with
      | some requestId => .error (.duplicateRequestId requestId)
      | none =>
          countPendingLoop order requestIds
            (sizeAdd pendingRequestCount pendingRequest.requestIds.card) rest

/-- Adds the requests of a call, unless one is pending already or they are too many. -/
def addRequests (order : Traversal Int) (currentTime : Int) (clientId : ClientId)
    (requestIds : Finset Int) (callback : κ) (s : PendingRequestPool κ) :
    Except AddError Unit × PendingRequestPool κ :=
  let pendingRequests := s.mPendingRequestsByClient.valueAt clientId []
  match countPendingLoop order requestIds 0 pendingRequests with
  | .error e => (.error e, s)
  | .ok pendingRequestCount =>
      if requestIds.card > sizeSub maxPendingRequestPerClient pendingRequestCount then
        (.error .tooManyPendingRequests, { s with
          mPendingRequestsByClient := s.mPendingRequestsByClient.touch clientId [] })
      else
        (.ok (), { s with
          mPendingRequestsByClient := s.mPendingRequestsByClient.insert clientId
            (pendingRequests ++
              [⟨requestIds, currentTime + s.mTimeoutInNano, callback⟩]) })

/-- Some call of the client still waits for the request. -/
def isRequestPending (clientId : ClientId) (requestId : Int) (s : PendingRequestPool κ) : Bool :=
  match s.mPendingRequestsByClient.lookup clientId with
  | none => false
  | some pendingRequests => pendingRequests.any fun p => requestId ∈ p.requestIds

/-- The number of pending ids of a client. -/
def countPendingRequests (clientId : ClientId) (s : PendingRequestPool κ) : Nat :=
  match s.mPendingRequestsByClient.lookup clientId with
  | none => 0
  | some pendingRequests =>
      pendingRequests.foldl (fun count p => sizeAdd count p.requestIds.card) 0

/-- The loop of `tryFinishRequests`: the found ids and the requests that are left. -/
def finishLoop (requestIds : Finset Int) :
    List (PendingRequest κ) → Finset Int × List (PendingRequest κ)
  | [] => (∅, [])
  | pendingRequest :: rest =>
      let done := finishLoop requestIds rest
      let left := pendingRequest.requestIds \ requestIds
      (pendingRequest.requestIds ∩ requestIds ∪ done.1,
        if left = ∅ then done.2 else { pendingRequest with requestIds := left } :: done.2)

/-- Finishes those of the requests that are pending. -/
def tryFinishRequests (clientId : ClientId) (requestIds : Finset Int)
    (s : PendingRequestPool κ) : Finset Int × PendingRequestPool κ :=
  match s.mPendingRequestsByClient.lookup clientId with
  | none => (∅, s)
  | some pendingRequests =>
      let done := finishLoop requestIds pendingRequests
      (done.1, { s with
        mPendingRequestsByClient := s.mPendingRequestsByClient.insert clientId done.2 })

/-- The time of a pending request is over. -/
def expired (currentTime : Int) (p : PendingRequest κ) : Bool := p.timeoutTimestamp < currentTime

/-- The turn of one client in `checkTimeout`: its leading requests whose time is over move
to the timed out ones. The entry of a client with no request left is dropped. -/
def sweepClient (currentTime : Int)
    (acc : List (PendingRequest κ) × UnorderedMap ClientId (List (PendingRequest κ)))
    (entry : ClientId × List (PendingRequest κ)) :
    List (PendingRequest κ) × UnorderedMap ClientId (List (PendingRequest κ)) :=
  let left := entry.2.dropWhile (expired currentTime)
  (acc.1 ++ entry.2.takeWhile (expired currentTime),
    if left.isEmpty then acc.2.erase entry.1 else acc.2.insert entry.1 left)

/-- The part of `checkTimeout` under the lock: the requests whose callbacks are to be called
after it. -/
def checkTimeout (order : Traversal ClientId) (currentTime : Int) (s : PendingRequestPool κ) :
    List (PendingRequest κ) × PendingRequestPool κ :=
  let swept := (order.entries s.mPendingRequestsByClient).foldl (sweepClient currentTime)
    ([], s.mPendingRequestsByClient)
  (swept.1, { s with mPendingRequestsByClient := swept.2 })

/-- The part of the destructor under the lock: every pending request is timed out. -/
def destroy (order : Traversal ClientId) (s : PendingRequestPool κ) :
    List (PendingRequest κ) × PendingRequestPool κ :=
  ((order.entries s.mPendingRequestsByClient).flatMap Prod.snd, { s with
    mPendingRequestsByClient := ∅ })

end PendingRequestPool

end VhalCore.PendingRequests
