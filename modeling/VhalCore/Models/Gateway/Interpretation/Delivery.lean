import VhalCore.Models.Gateway.Interpretation.Cycles

/-!
# What a node is given

The batches of a node that were handed over, the one in the hand of the worker, the queued ones
and those of the cycle that is still to be queued are together the batches of all cycles, in
their order. Every step keeps this, so it holds in every run, and a worker that has left its
loop has handed over everything.
-/

namespace VhalCore.Gateway

open Grpc (GetValueResult)

/-- The values of the present cycle that are still to be forwarded to a node. -/
def VhalGateway.pendingFor (g : VhalGateway) (n : Nat) : List VehiclePropValue :=
  match g.poller with
  | .idle => []
  | .forwarding values next => if next ≤ n then values else []

namespace NodeForwarder

/-- The batches handed to `SetValues`, in their order. -/
def handed (f : NodeForwarder) : List ForwardBatch := f.sent.map Prod.fst

/-- The batch that was taken and is not handed over yet. -/
def inHand (f : NodeForwarder) : List ForwardBatch :=
  match f.mWorker with
  | .sending batch => [batch]
  | _ => []

/-- A forwarder that has the batches of all cycles, up to the pending values. -/
structure Follows (node : GatewayNodeConfig) (cycles : List (List VehiclePropValue))
    (pending : List VehiclePropValue) (f : NodeForwarder) : Prop where
  messages : f.mMessages = node.messages.map GatewayMessage.filter
  allPropIds : f.mAllPropIds = Gateway.allPropIds node.messages
  batches : f.handed ++ f.inHand ++ f.mQueue ++ batches f.mMessages pending =
    cycles.flatMap (NodeForwarder.batches f.mMessages)
  exited : f.mWorker = .exited → f.mQueue = [] ∧ f.mRunning = false

variable {node : GatewayNodeConfig} {cycles : List (List VehiclePropValue)}
  {pending : List VehiclePropValue} {f : NodeForwarder}

/-- A new forwarder follows the empty history. -/
theorem follows_ofConfig (node : GatewayNodeConfig) : Follows node [] [] (ofConfig node) where
  messages := rfl
  allPropIds := rfl
  batches := batches_nil _
  exited h := nomatch h

/-- A cycle that begins is pending for every node. -/
theorem Follows.cycle (h : Follows node cycles [] f) (changed : List VehiclePropValue) :
    Follows node (cycles ++ [changed]) changed f where
  messages := h.messages
  allPropIds := h.allPropIds
  batches := by
    have hbatches := h.batches
    rw [batches_nil, List.append_nil] at hbatches
    rw [List.flatMap_append, ← hbatches, List.flatMap_singleton]
  exited := h.exited

/-- A node that lists none of the values has no group that does. -/
theorem Follows.batches_of_irrelevant (h : Follows node cycles pending f)
    {values : List VehiclePropValue} (hnone : ∀ v ∈ values, v.prop ∉ f.mAllPropIds) :
    NodeForwarder.batches f.mMessages values = [] := by
  refine batches_eq_nil fun filter hfilter v hv hmem => hnone v hv ?_
  rw [h.messages] at hfilter
  obtain ⟨msg, hmsg, rfl⟩ := List.mem_map.mp hfilter
  rw [h.allPropIds, Gateway.allPropIds, List.mem_toFinset]
  exact List.mem_flatMap.mpr ⟨msg, hmsg, List.mem_toFinset.mp hmem⟩

/-- `forward` queues what is pending, also when it takes the fast path. -/
theorem Follows.forward (h : Follows node cycles pending f) (hrun : f.mWorker ≠ .exited) :
    Follows node cycles [] (f.forward pending) := by
  rw [NodeForwarder.forward]
  split
  · exact {
      messages := h.messages
      allPropIds := h.allPropIds
      batches := by
        rw [← h.batches, batches_nil, List.append_nil, ← List.append_assoc]
        rfl
      exited := fun hexit => absurd hexit hrun }
  · rename_i hnone
    have hirrelevant : NodeForwarder.batches f.mMessages pending = [] :=
      h.batches_of_irrelevant fun v hv hmem =>
        hnone (List.any_eq_true.mpr ⟨v, hv, by simpa using hmem⟩)
    exact {
      messages := h.messages
      allPropIds := h.allPropIds
      batches := by rw [← h.batches, batches_nil, hirrelevant]
      exited := h.exited }

/-- A forwarder that takes a batch goes on following. -/
theorem Follows.take (h : Follows node cycles pending f) (hwait : f.mWorker = .waiting)
    {batch : ForwardBatch} {rest : List ForwardBatch} (hqueue : f.mQueue = batch :: rest) :
    Follows node cycles pending { f with mQueue := rest, mWorker := .sending batch } where
  messages := h.messages
  allPropIds := h.allPropIds
  batches := by
    have hbatches := h.batches
    rw [inHand, hwait, hqueue] at hbatches
    simpa [handed, inHand] using hbatches
  exited hexit := nomatch hexit

/-- A forwarder that sends its batch goes on following. -/
theorem Follows.send (h : Follows node cycles pending f) {batch : ForwardBatch}
    (hsend : f.mWorker = .sending batch) (reply : Reply) :
    Follows node cycles pending
      { f with sent := f.sent ++ [(batch, reply)], mWorker := .waiting } where
  messages := h.messages
  allPropIds := h.allPropIds
  batches := by
    have hbatches := h.batches
    rw [inHand, hsend] at hbatches
    simpa [handed, inHand] using hbatches
  exited hexit := nomatch hexit

/-- A forwarder that exits has sent everything. -/
theorem Follows.exit (h : Follows node cycles pending f) (hwait : f.mWorker = .waiting)
    (hqueue : f.mQueue = []) (hstop : f.mRunning = false) :
    Follows node cycles pending { f with mWorker := .exited } where
  messages := h.messages
  allPropIds := h.allPropIds
  batches := by
    have hbatches := h.batches
    rw [inHand, hwait] at hbatches
    exact hbatches
  exited _ := ⟨hqueue, hstop⟩

/-- A forwarder that is told to stop goes on following. -/
theorem Follows.destroy (h : Follows node cycles pending f) :
    Follows node cycles pending { f with mRunning := false } where
  messages := h.messages
  allPropIds := h.allPropIds
  batches := h.batches
  exited hexit := ⟨(h.exited hexit).1, rfl⟩

/-- What is handed over is an initial part of the batches of all cycles. -/
theorem Follows.handed_prefix (h : Follows node cycles pending f) :
    f.handed <+: cycles.flatMap (NodeForwarder.batches f.mMessages) := by
  rw [← h.batches, List.append_assoc, List.append_assoc]
  exact List.prefix_append _ _

/-- It is all of them when nothing is pending, queued or in the hand of the worker. -/
theorem Follows.handed_eq (h : Follows node cycles [] f) (hqueue : f.mQueue = [])
    (hhand : f.inHand = []) :
    f.handed = cycles.flatMap (NodeForwarder.batches f.mMessages) := by
  rw [← h.batches, hqueue, hhand, batches_nil]
  simp

end NodeForwarder

/-- Every forwarder has the batches of the cycles of the run, and the destruction begins after
the last poll. -/
structure VhalGateway.Follows (config : GatewayConfig) (history : History) (g : VhalGateway) :
    Prop where
  previous : g.mPreviousValues = history.previous
  closing : g.closing = true → g.poller = .idle
  stopped : ∀ (n : Nat) (f : NodeForwarder), g.mForwarders[n]? = some f → f.mRunning = false →
    g.closing = true
  nodes : ∀ (n : Nat) (node : GatewayNodeConfig), config.nodes[n]? = some node →
    ∃ f : NodeForwarder, g.mForwarders[n]? = some f ∧
      f.Follows node history.cycles (g.pendingFor n)

namespace VhalGateway

variable {config : GatewayConfig} {H : History} {g g' : VhalGateway} {n : Nat}

/-- A new gateway follows the empty history. -/
theorem follows_ofConfig (config : GatewayConfig) (order : Traversal Int) :
    Follows config {} (ofConfig config order) where
  previous := rfl
  closing h := nomatch h
  stopped n f hf hstop := by
    obtain ⟨node, -, rfl⟩ := List.mem_map.mp (List.mem_of_getElem? hf)
    cases hstop
  nodes n node hnode := by
    refine ⟨NodeForwarder.ofConfig node, ?_, NodeForwarder.follows_ofConfig node⟩
    rw [ofConfig, List.getElem?_map, hnode]
    rfl

/-- A step that changes one forwarder. -/
theorem Follows.modify (h : g.Follows config H) (change : NodeForwarder → NodeForwarder)
    (hforwarders : g'.mForwarders = g.mForwarders.modify n change)
    (hprevious : g'.mPreviousValues = g.mPreviousValues)
    (hclosing : g'.closing = true → g'.poller = .idle)
    (hmono : g.closing = true → g'.closing = true)
    (hstop : ∀ f, g.mForwarders[n]? = some f → (change f).mRunning = false → g'.closing = true)
    (hpending : ∀ m, m ≠ n → g'.pendingFor m = g.pendingFor m)
    (hnode : ∀ node f, g.mForwarders[n]? = some f →
      f.Follows node H.cycles (g.pendingFor n) →
      (change f).Follows node H.cycles (g'.pendingFor n)) : g'.Follows config H where
  previous := hprevious.trans h.previous
  closing := hclosing
  stopped m f' hf' hstopped := by
    rw [hforwarders, List.getElem?_modify] at hf'
    obtain ⟨f, hf, rfl⟩ := Option.map_eq_some_iff.mp hf'
    by_cases hm : n = m
    · subst hm
      rw [if_pos rfl] at hstopped
      exact hstop f hf hstopped
    · rw [if_neg hm] at hstopped
      exact hmono (h.stopped m f hf hstopped)
  nodes m node hm := by
    obtain ⟨f, hf, hfollows⟩ := h.nodes m node hm
    by_cases hmn : n = m
    · subst hmn
      rw [hforwarders, List.getElem?_modify_eq, hf]
      exact ⟨change f, rfl, hnode node f hf hfollows⟩
    · rw [hforwarders, List.getElem?_modify_ne _ _ hmn, hf, hpending m (Ne.symm hmn)]
      exact ⟨f, rfl, hfollows⟩

/-- A step of a worker leaves the flags and the poller as they are. -/
theorem Follows.modifyForwarder (h : g.Follows config H) {f : NodeForwarder}
    (hf : g.mForwarders[n]? = some f) (change : NodeForwarder → NodeForwarder)
    (hrun : (change f).mRunning = f.mRunning)
    (hnode : ∀ node, f.Follows node H.cycles (g.pendingFor n) →
      (change f).Follows node H.cycles (g.pendingFor n)) :
    (g.modifyForwarder n change).Follows config H := by
  refine h.modify change rfl rfl h.closing id ?_ (fun _ _ => rfl) ?_
  · intro f' hf' hstop
    cases hf.symm.trans hf'
    exact h.stopped n f hf (hrun ▸ hstop)
  · intro node f' hf' hfollows
    cases hf.symm.trans hf'
    exact hnode node hfollows

/-- After a successful poll the changed values are pending for every node. -/
theorem pendingFor_pollOnce (g : VhalGateway) (results : List GetValueResult) (n : Nat) :
    (g.pollOnce statusOk results).pendingFor n = (detectChanges results g.mPreviousValues).1 := by
  rw [pendingFor, pollOnce, if_pos rfl]
  by_cases hnone : (detectChanges results g.mPreviousValues).1 = []
  · simp [hnone]
  · simp [hnone]

/-- A poll hands its cycle to all forwarders. -/
theorem Follows.pollOnce (h : g.Follows config H) (hidle : g.poller = .idle)
    (hopen : g.closing = false) (status : Int) (results : List GetValueResult) :
    (g.pollOnce status results).Follows config (H.add (.poll status results)) := by
  by_cases hok : status = statusOk
  · subst hok
    have hclosing : (g.pollOnce statusOk results).closing = false := by
      rw [VhalGateway.pollOnce, if_pos rfl]
      exact hopen
    have hforwarders : (g.pollOnce statusOk results).mForwarders = g.mForwarders := by
      rw [VhalGateway.pollOnce, if_pos rfl]
    rw [History.add, if_pos rfl, ← h.previous]
    constructor
    · rw [VhalGateway.pollOnce, if_pos rfl]
    · intro hclosed
      rw [hclosing] at hclosed
      cases hclosed
    · intro m f hf hstop
      rw [hforwarders] at hf
      rw [h.stopped m f hf hstop] at hopen
      cases hopen
    · intro m node hm
      obtain ⟨f, hf, hfollows⟩ := h.nodes m node hm
      refine ⟨f, hforwarders ▸ hf, ?_⟩
      rw [pendingFor, hidle] at hfollows
      rw [pendingFor_pollOnce]
      exact hfollows.cycle _
  · rw [VhalGateway.pollOnce, if_neg hok, History.add, if_neg hok]
    exact h

/-- Every step keeps the gateway following its history. -/
theorem Follows.step (h : g.Follows config H) {e : GatewayEvent} (hstep : GatewayStep g e g') :
    g'.Follows config (H.add e) := by
  cases hstep with
  | poll status results hidle hopen => exact h.pollOnce hidle hopen status results
  | @forward values n hpoller hn =>
      have hrunning : ∀ f, g.mForwarders[n]? = some f → f.mRunning ≠ false := by
        intro f hf hstop
        have hidle := h.closing (h.stopped n f hf hstop)
        rw [hpoller] at hidle
        cases hidle
      refine h.modify (NodeForwarder.forward values) rfl rfl ?_ id ?_ ?_ ?_
      · intro hclosing
        have hidle := h.closing hclosing
        rw [hpoller] at hidle
        cases hidle
      · intro f hf hstop
        refine absurd ?_ (hrunning f hf)
        rw [NodeForwarder.forward] at hstop
        split at hstop <;> exact hstop
      · intro m hm
        simp only [pendingFor, hpoller]
        split <;> split <;> first | rfl | omega
      · intro node f hf hfollows
        simp only [pendingFor, hpoller, le_refl, ite_true] at hfollows
        simp only [pendingFor, if_neg (Nat.not_succ_le_self n)]
        exact hfollows.forward fun hexit => hrunning f hf (hfollows.exited hexit).2
  | @done values n hpoller hn =>
      refine ⟨h.previous, fun _ => rfl, h.stopped, fun m node hm => ?_⟩
      obtain ⟨f, hf, hfollows⟩ := h.nodes m node hm
      refine ⟨f, hf, ?_⟩
      have hlt := (List.getElem?_eq_some_iff.mp hf).1
      simp only [pendingFor, hpoller] at hfollows
      rw [if_neg (by omega)] at hfollows
      exact hfollows
  | take hf hwait hqueue =>
      exact h.modifyForwarder hf _ rfl fun node hfollows => hfollows.take hwait hqueue
  | send reply hf hsend =>
      exact h.modifyForwarder hf _ rfl fun node hfollows => hfollows.send hsend reply
  | exit hf hwait hqueue hstop =>
      exact h.modifyForwarder hf _ rfl fun node hfollows => hfollows.exit hwait hqueue hstop
  | destroy hidle =>
      exact h.modify _ rfl rfl (fun _ => hidle) (fun _ => rfl) (fun _ _ _ => rfl)
        (fun _ _ => rfl) fun node f _ hfollows => hfollows.destroy

/-- In every run of the threads each node has the batches of all cycles. -/
theorem follows_of_path {order : Traversal Int} {events : List GatewayEvent}
    (h : Path GatewayStep (ofConfig config order) events g) :
    g.Follows config (history events) := by
  induction h with
  | nil => exact follows_ofConfig config order
  | snoc _ hstep ih =>
      rw [history_concat]
      exact ih.step hstep

end VhalGateway

/-- The polling thread has passed the node, and its worker has nothing left to send. -/
def Drained (g : VhalGateway) (n : Nat) (f : NodeForwarder) : Prop :=
  g.pendingFor n = [] ∧ f.mQueue = [] ∧ f.inHand = []

/-- A worker that has left its loop has nothing left to send. -/
theorem VhalGateway.Follows.drained_of_exited {config : GatewayConfig} {H : History}
    {g : VhalGateway} (h : g.Follows config H) {n : Nat} {node : GatewayNodeConfig}
    {f : NodeForwarder} {pending : List VehiclePropValue} (hf : g.mForwarders[n]? = some f)
    (hfollows : f.Follows node H.cycles pending) (hexit : f.mWorker = .exited) :
    Drained g n f := by
  obtain ⟨hqueue, hstop⟩ := hfollows.exited hexit
  have hidle := h.closing (h.stopped n f hf hstop)
  refine ⟨?_, hqueue, ?_⟩
  · rw [VhalGateway.pendingFor, hidle]
  · rw [NodeForwarder.inHand, hexit]

end VhalCore.Gateway
