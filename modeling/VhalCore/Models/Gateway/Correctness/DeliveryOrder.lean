import VhalCore.Models.Gateway.Interpretation.Delivery

/-!
# The order of delivery

For a property of a group the values handed to `SetValues` are the polled ones without
consecutive repetitions: an initial part of them at any time, and all of them once nothing is
left to send. A forwarder that is destroyed sends what is queued before its worker ends.
-/

namespace VhalCore.Gateway

open NodeForwarder (batches)

/-- A step of the worker of a node. -/
def GatewayEvent.IsWorker (n : Nat) : GatewayEvent → Prop
  | .take m | .send m _ | .exit m => m = n
  | _ => False

namespace VhalGateway

theorem modifyForwarder_getElem? (g : VhalGateway) {n : Nat} {f : NodeForwarder}
    (hf : g.mForwarders[n]? = some f) (change : NodeForwarder → NodeForwarder) :
    (g.modifyForwarder n change).mForwarders[n]? = some (change f) := by
  rw [modifyForwarder, List.getElem?_modify_eq, hf]
  rfl

/-- A worker with a queue can hand over all of it, whatever the replies are. -/
theorem exists_drain (answer : ForwardBatch → Reply) (n : Nat) (queue : List ForwardBatch)
    (g : VhalGateway) (f : NodeForwarder) (hf : g.mForwarders[n]? = some f)
    (hwait : f.mWorker = .waiting) (hqueue : f.mQueue = queue) :
    ∃ events g', Path GatewayStep g events g' ∧ (∀ e ∈ events, e.IsWorker n) ∧
      g'.mForwarders[n]? = some { f with
        mQueue := [], sent := f.sent ++ queue.map fun batch => (batch, answer batch) } := by
  induction queue generalizing g f with
  | nil =>
      refine ⟨[], g, .nil g, by simp, ?_⟩
      rw [hf, List.map_nil, List.append_nil, ← hqueue]
  | cons batch rest ih =>
      have htake := GatewayStep.take hf hwait hqueue
      have htaken := g.modifyForwarder_getElem? hf fun f =>
        { f with mQueue := rest, mWorker := .sending batch }
      have hsend := GatewayStep.send (answer batch) htaken rfl
      have hsent := modifyForwarder_getElem? _ htaken fun f =>
        { f with sent := f.sent ++ [(batch, answer batch)], mWorker := .waiting }
      obtain ⟨events, g', hpath, hworker, hf'⟩ := ih _ _ hsent rfl rfl
      refine ⟨_, g', ((Path.single htake).snoc hsend).trans hpath, ?_, ?_⟩
      · intro e he
        simp only [List.cons_append, List.nil_append, List.mem_cons] at he
        rcases he with rfl | rfl | he
        · rfl
        · rfl
        · exact hworker e he
      · rw [hf', ← hwait]
        simp

/-- The worker of a forwarder that is being destroyed sends what it has and ends. -/
theorem exists_exit (answer : ForwardBatch → Reply) {g : VhalGateway} {n : Nat}
    {f : NodeForwarder} (hf : g.mForwarders[n]? = some f) (hstop : f.mRunning = false)
    (hrun : f.mWorker ≠ .exited) :
    ∃ events g' f', Path GatewayStep g events g' ∧ (∀ e ∈ events, e.IsWorker n) ∧
      g'.mForwarders[n]? = some f' ∧ f'.mWorker = .exited ∧
      f'.sent = f.sent ++ (f.inHand ++ f.mQueue).map fun batch => (batch, answer batch) := by
  have hwaiting (g : VhalGateway) (f : NodeForwarder) (hf : g.mForwarders[n]? = some f)
      (hstop : f.mRunning = false) (hwait : f.mWorker = .waiting) :
      ∃ events g' f', Path GatewayStep g events g' ∧ (∀ e ∈ events, e.IsWorker n) ∧
        g'.mForwarders[n]? = some f' ∧ f'.mWorker = .exited ∧
        f'.sent = f.sent ++ f.mQueue.map fun batch => (batch, answer batch) := by
    obtain ⟨events, g', hpath, hworker, hf'⟩ := exists_drain answer n _ g f hf hwait rfl
    refine ⟨_, _, _, hpath.snoc (.exit hf' hwait rfl hstop), ?_, modifyForwarder_getElem? _ hf' _,
      rfl, rfl⟩
    intro e he
    rcases List.mem_append.mp he with he | he
    · exact hworker e he
    · rw [List.mem_singleton.mp he]
      rfl
  rcases hworker : f.mWorker with _ | batch | _
  · rw [NodeForwarder.inHand, hworker]
    exact hwaiting g f hf hstop hworker
  · have hsend := GatewayStep.send (answer batch) hf hworker
    have hsent := g.modifyForwarder_getElem? hf fun f =>
      { f with sent := f.sent ++ [(batch, answer batch)], mWorker := .waiting }
    obtain ⟨events, g', f', hpath, hmine, hf', hexit, hall⟩ := hwaiting _ _ hsent hstop rfl
    refine ⟨_, g', f', (Path.single hsend).trans hpath, ?_, hf', hexit, ?_⟩
    · intro e he
      rcases List.mem_cons.mp he with rfl | he
      · rfl
      · exact hmine e he
    · rw [hall, NodeForwarder.inHand, hworker]
      simp
  · exact absurd hworker hrun

end VhalGateway

/-- The values of a property that a group has handed over, and those it will have handed
over. -/
theorem NodeForwarder.Follows.ofProp_handed {node : GatewayNodeConfig}
    {events : List GatewayEvent} {pending : List VehiclePropValue} {f : NodeForwarder}
    (h : f.Follows node (history events).cycles pending) {group : Nat} {msg : GatewayMessage}
    (hmsg : node.messages[group]? = some msg) {propId : Int}
    (hprop : propId ∈ msg.properties.map GatewayProperty.id) :
    ofProp propId (groupValues group
        ((history events).cycles.flatMap (NodeForwarder.batches f.mMessages))) =
      (polledOf events propId).destutter Differs := by
  have hfilter : f.mMessages[group]? = some msg.filter := by
    rw [h.messages, List.getElem?_map, hmsg]
    rfl
  have hmem : propId ∈ msg.filter.propIds := List.mem_toFinset.mpr hprop
  rw [NodeForwarder.ofProp_groupValues hfilter hmem, (history_spec events propId).1]

/-- In every run each node is given the batches of the cycles in the order in which they were
queued. A cycle has one batch for a group with changed properties, with exactly their values,
and none for another group. For a property of a group the values handed over are an initial
part of the polled ones without consecutive repetitions, and all of them once the node is
drained. A forwarder that is destroyed can always end, whatever the replies are, and it is
drained then. -/
theorem handed_in_order {config : GatewayConfig} {order : Traversal Int}
    {events : List GatewayEvent} {g : VhalGateway}
    (h : Path GatewayStep (.ofConfig config order) events g) {n : Nat}
    {node : GatewayNodeConfig} (hnode : config.nodes[n]? = some node) :
    ∃ f, g.mForwarders[n]? = some f ∧
      f.handed ++ f.inHand ++ f.mQueue ++ batches f.mMessages (g.pendingFor n) =
        (history events).cycles.flatMap (batches f.mMessages) ∧
      (∀ group msg, node.messages[group]? = some msg →
        (∀ cycle, (batches f.mMessages cycle).filter (fun b => b.group = group) =
          match cycle.filter fun v => v.prop ∈ msg.properties.map GatewayProperty.id with
          | [] => []
          | v :: vs => [⟨msg.msgId, v :: vs, group⟩]) ∧
        ∀ propId ∈ msg.properties.map GatewayProperty.id,
          ofProp propId (groupValues group f.handed) <+:
            (polledOf events propId).destutter Differs ∧
          (Drained g n f → ofProp propId (groupValues group f.handed) =
            (polledOf events propId).destutter Differs)) ∧
      (f.mWorker = .exited → Drained g n f) ∧
      (f.mRunning = false → f.mWorker ≠ .exited → ∀ answer : ForwardBatch → Reply,
        ∃ later g' f', Path GatewayStep g later g' ∧ (∀ e ∈ later, e.IsWorker n) ∧
          g'.mForwarders[n]? = some f' ∧ f'.mWorker = .exited ∧
          f'.sent = f.sent ++ (f.inHand ++ f.mQueue).map fun b => (b, answer b)) := by
  have hfollows := VhalGateway.follows_of_path h
  obtain ⟨f, hf, hnodeFollows⟩ := hfollows.nodes n node hnode
  refine ⟨f, hf, hnodeFollows.batches, ?_, hfollows.drained_of_exited hf hnodeFollows,
    fun hstop hrun answer => VhalGateway.exists_exit answer hf hstop hrun⟩
  intro group msg hmsg
  refine ⟨fun cycle => ?_, fun propId hprop => ⟨?_, ?_⟩⟩
  · rw [hnodeFollows.messages]
    exact NodeForwarder.batches_of_message hmsg cycle
  · rw [← hnodeFollows.ofProp_handed hmsg hprop]
    obtain ⟨rest, hrest⟩ := hnodeFollows.handed_prefix
    rw [← hrest, groupValues_append, ofProp_append]
    exact List.prefix_append _ _
  · intro hdrained
    rw [← hnodeFollows.ofProp_handed hmsg hprop]
    rw [hdrained.1] at hnodeFollows
    rw [hnodeFollows.handed_eq hdrained.2.1 hdrained.2.2]

/-- One node with one group, which lists the gear. -/
def gearConfig : GatewayConfig where
  nodes := [⟨"192.168.10.20:50051", [⟨"ivi-basic", [⟨0x11400400, "GEAR_SELECTION"⟩]⟩]⟩]

/-- A reading of the gear. -/
def gear (value : Int) (timestamp : Int) : VehiclePropValue where
  prop := 0x11400400
  timestamp := timestamp
  value := { int32Values := [value] }

/-- The gear is polled, once more without a change, and then it changes; the forwarder is
destroyed while the second batch is queued. -/
def gearEvents : List GatewayEvent :=
  [.poll 0 [⟨0, 0, some (gear 4 1)⟩], .forward, .done, .take 0,
    .poll 0 [⟨0, 0, some (gear 4 2)⟩], .send 0 (some [0]),
    .poll 0 [⟨0, 0, some (gear 8 3)⟩], .forward, .done, .destroy 0,
    .take 0, .send 0 none, .exit 0]

private theorem exists_gear_path : ∃ g f,
    Path GatewayStep (.ofConfig gearConfig (Traversal.ascending Int)) gearEvents g ∧
      g.mForwarders[0]? = some f ∧ f.mWorker = .exited := by
  have hpath := Path.single (GatewayStep.poll
    (g := .ofConfig gearConfig (Traversal.ascending Int)) 0 [⟨0, 0, some (gear 4 1)⟩] rfl rfl)
  have hpath := hpath.snoc (.forward rfl Nat.zero_lt_one)
  have hpath := hpath.snoc (.done rfl (Nat.le_refl 1))
  have hpath := hpath.snoc (@GatewayStep.take _ 0 _ _ _ rfl rfl rfl)
  have hpath := hpath.snoc (.poll 0 [⟨0, 0, some (gear 4 2)⟩] rfl rfl)
  have hpath := hpath.snoc (@GatewayStep.send _ 0 _ _ (some [0]) rfl rfl)
  have hpath := hpath.snoc (.poll 0 [⟨0, 0, some (gear 8 3)⟩] rfl rfl)
  have hpath := hpath.snoc (.forward rfl Nat.zero_lt_one)
  have hpath := hpath.snoc (.done rfl (Nat.le_refl 1))
  have hpath := hpath.snoc (@GatewayStep.destroy _ 0 rfl)
  have hpath := hpath.snoc (@GatewayStep.take _ 0 _ _ _ rfl rfl rfl)
  have hpath := hpath.snoc (@GatewayStep.send _ 0 _ _ none rfl rfl)
  have hpath := hpath.snoc (@GatewayStep.exit _ 0 _ rfl rfl rfl rfl)
  exact ⟨_, _, hpath, rfl, rfl⟩

/-- The node is given both values of the gear, the last one although its forwarder is
destroyed. -/
theorem gear_handed_over :
    ∃ g f, Path GatewayStep (.ofConfig gearConfig (Traversal.ascending Int)) gearEvents g ∧
      g.mForwarders[0]? = some f ∧ f.mWorker = .exited ∧
      ofProp 0x11400400 (groupValues 0 f.handed) = [gear 4 1, gear 8 3] := by
  obtain ⟨g, f, hpath, hf, hexit⟩ := exists_gear_path
  obtain ⟨f', hf', -, hgroups, hdrained, -⟩ := handed_in_order hpath (n := 0) rfl
  cases hf.symm.trans hf'
  refine ⟨g, f, hpath, hf, hexit, ?_⟩
  have hgear := (hgroups 0 _ rfl).2 0x11400400 (List.mem_singleton_self _)
  exact hgear.2 (hdrained hexit)

end VhalCore.Gateway
