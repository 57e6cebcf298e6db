import VhalCore.Models.Subscription.Native.Operations

/-!
# The subscription table

What the subscription manager is for: a table that holds, for every pair and every
client, the subscription the client made last and has not given up. A call that
succeeds changes the table at all the pairs it names; a call whose hardware fails
has changed it at some of them. The table knows nothing of the hardware, of the
combined configs or of the book-keeping, and serves as the reference for all three.
-/

namespace VhalCore.Subscription

open SubscriptionManager

/-- A subscription as its client made it; an on-change one has no config. -/
structure Registration where
  callback : CallbackType
  config : Option SubConfig

/-- The config a turn of `subscribe` passes on: none for an on-change property. -/
def requestedConfig (isContinuousProperty : Bool) (option : SubscribeOptions) : Option SubConfig :=
  if isContinuousProperty then
    some ⟨option.sampleRate, option.resolution, option.enableVariableUpdateRate⟩
  else none

/-- The turns of `subscribe`: every area of every option. -/
def subscribeTurns (options : List SubscribeOptions) : List (SubscribeOptions × Int) :=
  options.flatMap fun option => option.areaIds.map fun areaId => (option, areaId)

/-- For every pair and client the entry the client has, if any. -/
abbrev Table (S : Type) := PropIdAreaId → ClientIdType → Option S

namespace Table

variable {S : Type}

/-- No client holds anything. -/
def empty : Table S := fun _ _ => none

/-- The entry of a client of a pair is set. -/
def subscribe (T : Table S) (p : PropIdAreaId) (c : ClientIdType) (entry : S) : Table S :=
  Function.update T p (Function.update (T p) c (some entry))

/-- The entries of a client are removed at the pairs that satisfy `P`. -/
def unsubscribe (T : Table S) (c : ClientIdType) (P : PropIdAreaId → Prop) [DecidablePred P] :
    Table S :=
  fun p d => if d = c ∧ P p then none else T p d

/-- A subscription is seen at its pair and client only. -/
theorem subscribe_apply (T : Table S) (p q : PropIdAreaId) (c d : ClientIdType) (entry : S) :
    T.subscribe p c entry q d = if q = p ∧ d = c then some entry else T q d := by
  by_cases hq : q = p
  · subst hq
    by_cases hd : d = c
    · subst hd
      simp only [subscribe, Function.update_self, and_self, ite_true]
    · simp only [subscribe, Function.update_self, Function.update_of_ne hd, hd, and_false,
        ite_false]
  · simp only [subscribe, Function.update_of_ne hq, hq, false_and, ite_false]

variable (entry : CallbackType → Option SubConfig → S)

/-- The turns of a `subscribe` call applied one after the other. -/
def subscribeAll (callback : CallbackType) (isContinuousProperty : Bool)
    (turns : List (SubscribeOptions × Int)) (T : Table S) : Table S :=
  turns.foldl (fun T turn => T.subscribe ⟨turn.1.propId, turn.2⟩ callback.asBinder
    (entry callback (requestedConfig isContinuousProperty turn.1))) T

/-- The effect of a call that does all it was asked for. -/
def apply (lib : MathLibrary) (T : Table S) : Operation → Table S
  | .subscribe callback options isContinuousProperty =>
      match checkOptions lib isContinuousProperty options with
      | some (.ok ()) =>
          subscribeAll entry callback isContinuousProperty (subscribeTurns options) T
      | _ => T
  | .unsubscribe c propIds _ => T.unsubscribe c fun p => p.propId ∈ propIds
  | .unsubscribeClient c _ => T.unsubscribe c fun _ => True
  | .getSubscribedClients _ _ => T
  | .subscribeSupportedValueChange _ _ => T
  | .unsubscribeSupportedValueChange _ _ => T

/-- The effect of a call that failed: rejected options change nothing, otherwise some
turns have been applied before the failing one. -/
inductive Interrupted (lib : MathLibrary) (T : Table S) : Operation → Table S → Prop
  | subscribe (callback : CallbackType) (options : List SubscribeOptions)
      (isContinuousProperty : Bool) (done rest : List (SubscribeOptions × Int))
      (hcheck : checkOptions lib isContinuousProperty options = some (.ok ()))
      (h : subscribeTurns options = done ++ rest) :
      Interrupted lib T (.subscribe callback options isContinuousProperty)
        (subscribeAll entry callback isContinuousProperty done T)
  | unsubscribe (c : ClientIdType) (propIds : List Int) (order : Traversal PropIdAreaId)
      (done : List PropIdAreaId) :
      Interrupted lib T (.unsubscribe c propIds order)
        (T.unsubscribe c fun p => p.propId ∈ propIds ∧ p ∈ done)
  | unsubscribeClient (c : ClientIdType) (order : Traversal PropIdAreaId)
      (done : List PropIdAreaId) :
      Interrupted lib T (.unsubscribeClient c order) (T.unsubscribe c fun p => p ∈ done)

/-- One call: it did all it was asked for, or it returned an error after a part of it. -/
inductive Step (lib : MathLibrary) (T : Table S) : Operation × VhalResult → Table S → Prop
  | complete (op : Operation) (r : VhalResult) : Step lib T (op, r) (T.apply entry lib op)
  | interrupted (op : Operation) (e : StatusError) (T' : Table S)
      (h : Interrupted entry lib T op T') : Step lib T (op, .error e) T'

end Table

end VhalCore.Subscription
