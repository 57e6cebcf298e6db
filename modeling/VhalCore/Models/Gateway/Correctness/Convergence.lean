import VhalCore.Models.Gateway.Correctness.DeliveryOrder

/-!
# What a node has accepted

The gateway remembers a value when it puts it into a queue, before the call of `SetValues`. A
call that fails, or a value that the node refuses, is only logged. So the remembered value of a
property is the last one that was handed to the node, and it is the last one set there if that
call accepted it. A refused value is handed over again only after a further change.
-/

namespace VhalCore.Gateway

open NodeForwarder (batches)

/-- The reply has the status of success for the value at a position. -/
def accepts (reply : Reply) (i : Nat) : Bool :=
  (reply.bind fun statuses => statuses[i]?) = some statusOk

/-- The values of a call, and whether each was set. -/
def callOutcomes (call : ForwardBatch × Reply) : List (VehiclePropValue × Bool) :=
  call.1.values.zipIdx.map fun (v, i) => (v, accepts call.2 i)

namespace NodeForwarder

/-- The values of a property in the calls so far, and whether each was set. -/
def outcomes (f : NodeForwarder) (propId : Int) : List (VehiclePropValue × Bool) :=
  (f.sent.flatMap callOutcomes).filter fun outcome => outcome.1.prop = propId

/-- The values of a property that were set on the node. -/
def accepted (f : NodeForwarder) (propId : Int) : List VehiclePropValue :=
  ((f.outcomes propId).filter Prod.snd).map Prod.fst

theorem map_fst_callOutcomes (call : ForwardBatch × Reply) :
    (callOutcomes call).map Prod.fst = call.1.values := by
  rw [callOutcomes, List.map_map]
  exact List.zipIdx_map_fst ..

/-- The outcomes are those of the values handed out, in order. -/
theorem map_fst_outcomes (f : NodeForwarder) (propId : Int) :
    (f.outcomes propId).map Prod.fst = ofProp propId (f.handed.flatMap ForwardBatch.values) := by
  have hall : (f.sent.flatMap callOutcomes).map Prod.fst =
      f.handed.flatMap ForwardBatch.values := by
    rw [List.map_flatMap, handed, List.flatMap_map]
    exact List.flatMap_congr fun call _ => map_fst_callOutcomes call
  rw [← hall, ofProp, List.filter_map]
  rfl

/-- Of one property a cycle gives the same values to each group that lists it. -/
theorem ofProp_values_batches (messages : List MessageFilter) (values : List VehiclePropValue)
    (propId : Int) :
    ofProp propId ((batches messages values).flatMap ForwardBatch.values) =
      messages.flatMap fun msg =>
        if propId ∈ msg.propIds then ofProp propId values else [] := by
  rw [flatMap_values_batches, ofProp, List.filter_flatMap]
  refine List.flatMap_congr fun msg _ => ?_
  rw [List.filter_filter]
  split
  · rename_i hmem
    refine List.filter_congr fun v _ => ?_
    by_cases hv : v.prop = propId
    · simp [hv, hmem]
    · simp [hv]
  · rename_i hmem
    refine List.filter_eq_nil_iff.mpr fun v _ => ?_
    simp only [Bool.and_eq_true, decide_eq_true_eq, not_and]
    rintro rfl
    exact hmem

end NodeForwarder

/-- A list that is repeated keeps its last element. -/
theorem getLast?_flatMap_ite {α β : Type*} {P : β → Prop} [DecidablePred P] (l : List α)
    {ms : List β} (h : ∃ m ∈ ms, P m) :
    (ms.flatMap fun m => if P m then l else []).getLast? = l.getLast? := by
  induction ms with
  | nil =>
      obtain ⟨m, hm, -⟩ := h
      cases hm
  | cons m ms ih =>
      rw [List.flatMap_cons, List.getLast?_append]
      by_cases htail : ∃ m ∈ ms, P m
      · rw [ih htail]
        rcases hl : l.getLast? with _ | a
        · rw [List.getLast?_eq_none_iff.mp hl]
          simp
        · rfl
      · have hnone : (ms.flatMap fun m => if P m then l else []) = [] := by
          refine List.flatMap_eq_nil_iff.mpr fun m hm => if_neg fun hp => htail ⟨m, hm, hp⟩
        obtain ⟨m', hm', hp⟩ := h
        rcases List.mem_cons.mp hm' with rfl | hm'
        · rw [hnone, if_pos hp]
          rfl
        · exact absurd ⟨m', hm', hp⟩ htail

/-- The last value of a property in the batches of all cycles is the last changed one. -/
theorem getLast?_handed {messages : List MessageFilter} {propId : Int}
    (h : ∃ msg ∈ messages, propId ∈ msg.propIds) (cycles : List (List VehiclePropValue)) :
    (ofProp propId ((cycles.flatMap (batches messages)).flatMap ForwardBatch.values)).getLast? =
      (ofProp propId cycles.flatten).getLast? := by
  induction cycles using List.reverseRecOn with
  | nil => rfl
  | append_singleton cycles cycle ih =>
      rw [List.flatMap_append, List.flatMap_append, ofProp_append, List.getLast?_append, ih,
        List.flatMap_singleton, NodeForwarder.ofProp_values_batches, getLast?_flatMap_ite _ h,
        List.flatten_append, List.flatten_singleton, ofProp_append, List.getLast?_append]

/-- Cycles without a change of the property have no batch with it. -/
theorem ofProp_handed_eq_nil (messages : List MessageFilter) {propId : Int}
    {cycles : List (List VehiclePropValue)} (h : ofProp propId cycles.flatten = []) :
    ofProp propId ((cycles.flatMap (batches messages)).flatMap ForwardBatch.values) = [] := by
  rw [List.flatMap_assoc, ofProp, List.filter_flatMap]
  refine List.flatMap_eq_nil_iff.mpr fun cycle hcycle => ?_
  have hcycleNone : ofProp propId cycle = [] := by
    refine List.filter_eq_nil_iff.mpr fun v hv => ?_
    exact List.filter_eq_nil_iff.mp h v (List.mem_flatten.mpr ⟨cycle, hcycle, hv⟩)
  have hbatches := NodeForwarder.ofProp_values_batches messages cycle propId
  rw [hcycleNone] at hbatches
  rw [← ofProp, hbatches]
  simp

/-- A step never takes back a call. -/
theorem GatewayStep.sent_prefix {g g' : VhalGateway} {e : GatewayEvent}
    (h : GatewayStep g e g') {n : Nat} {f : NodeForwarder} (hf : g.mForwarders[n]? = some f) :
    ∃ f', g'.mForwarders[n]? = some f' ∧ f.sent <+: f'.sent := by
  have hmodify (m : Nat) (change : NodeForwarder → NodeForwarder)
      (hchange : g.mForwarders[m]? = some f → f.sent <+: (change f).sent) :
      ∃ f', (g.mForwarders.modify m change)[n]? = some f' ∧ f.sent <+: f'.sent := by
    by_cases hm : m = n
    · subst hm
      rw [List.getElem?_modify_eq, hf]
      exact ⟨change f, rfl, hchange hf⟩
    · rw [List.getElem?_modify_ne _ _ hm, hf]
      exact ⟨f, rfl, List.prefix_rfl⟩
  cases h with
  | poll status results hidle hopen =>
      refine ⟨f, ?_, List.prefix_rfl⟩
      rw [VhalGateway.pollOnce]
      split <;> exact hf
  | @forward values m hpoller hm =>
      refine hmodify m (NodeForwarder.forward values) fun _ => ?_
      rw [NodeForwarder.forward]
      split <;> exact List.prefix_rfl
  | done hpoller hm => exact ⟨f, hf, List.prefix_rfl⟩
  | @take m f' batch rest hf' hwait hqueue =>
      exact hmodify m (fun f => { f with mQueue := rest, mWorker := .sending batch })
        fun _ => List.prefix_rfl
  | @send m f' batch reply hf' hsend =>
      exact hmodify m
        (fun f => { f with sent := f.sent ++ [(batch, reply)], mWorker := .waiting })
        fun _ => List.prefix_append _ _
  | @exit m f' hf' hwait hqueue hstop =>
      exact hmodify m (fun f => { f with mWorker := .exited }) fun _ => List.prefix_rfl
  | @destroy m hidle =>
      exact hmodify m (fun f => { f with mRunning := false }) fun _ => List.prefix_rfl

/-- A forwarder only ever sends more. -/
theorem sent_prefix_of_path {g g' : VhalGateway} {later : List GatewayEvent}
    (h : Path GatewayStep g later g') {n : Nat} {f : NodeForwarder}
    (hf : g.mForwarders[n]? = some f) :
    ∃ f', g'.mForwarders[n]? = some f' ∧ f.sent <+: f'.sent := by
  induction h with
  | nil => exact ⟨f, hf, List.prefix_rfl⟩
  | snoc _ hstep ih =>
      obtain ⟨f₁, hf₁, hprefix⟩ := ih
      obtain ⟨f₂, hf₂, hmore⟩ := hstep.sent_prefix hf₁
      exact ⟨f₂, hf₂, hprefix.trans hmore⟩

/-- A run only ever adds cycles. -/
theorem cycles_prefix (events later : List GatewayEvent) :
    (history events).cycles <+: (history (events ++ later)).cycles := by
  induction later using List.reverseRecOn with
  | nil =>
      rw [List.append_nil]
  | append_singleton later e ih =>
      rw [← List.append_assoc, history_concat]
      refine ih.trans ?_
      cases e with
      | poll status results =>
          rw [History.add]
          split
          · exact List.prefix_append _ _
          · exact List.prefix_rfl
      | _ => exact List.prefix_rfl

/-- Values that do not differ from the last one that is kept are dropped. -/
theorem destutter_append_of_not_differs {seen more : List VehiclePropValue}
    (h : ∀ v ∈ more, ∃ it, (seen.destutter Differs).getLast? = some it ∧ ¬Differs it v) :
    (seen ++ more).destutter Differs = seen.destutter Differs := by
  induction more using List.reverseRecOn with
  | nil => rw [List.append_nil]
  | append_singleton more v ih =>
      have hmore := ih fun w hw => h w (List.mem_append_left _ hw)
      obtain ⟨it, hit, hsame⟩ := h v (List.mem_append_right _ (List.mem_singleton_self v))
      rw [← List.append_assoc]
      rw [← hmore] at hit ⊢
      exact destutter_concat_of_not_rel Differs hit hsame

section Outcomes

variable {config : GatewayConfig} {order : Traversal Int} {events : List GatewayEvent}
  {g : VhalGateway} {n : Nat} {node : GatewayNodeConfig} {f : NodeForwarder} {propId : Int}

/-- The values of a property in the calls of a drained node. -/
theorem NodeForwarder.Follows.map_fst_outcomes
    (h : f.Follows node (history events).cycles (g.pendingFor n)) (hdrained : Drained g n f) :
    (f.outcomes propId).map Prod.fst = ofProp propId
      (((history events).cycles.flatMap (NodeForwarder.batches f.mMessages)).flatMap
        ForwardBatch.values) := by
  rw [hdrained.1] at h
  rw [NodeForwarder.map_fst_outcomes, h.handed_eq hdrained.2.1 hdrained.2.2]

/-- A property of the node has a message that carries it. -/
theorem NodeForwarder.Follows.exists_group {cycles : List (List VehiclePropValue)}
    {pending : List VehiclePropValue} (h : f.Follows node cycles pending)
    (hprop : propId ∈ Gateway.allPropIds node.messages) :
    ∃ msg ∈ f.mMessages, propId ∈ msg.propIds := by
  rw [Gateway.allPropIds, List.mem_toFinset] at hprop
  obtain ⟨msg, hmsg, hmem⟩ := List.mem_flatMap.mp hprop
  refine ⟨msg.filter, ?_, List.mem_toFinset.mpr hmem⟩
  rw [h.messages]
  exact List.mem_map_of_mem hmsg

/-- Without a further change of the property a drained node gets no further call for it. -/
theorem outcomes_of_unchanged (hpath : Path GatewayStep (.ofConfig config order) events g)
    (hnode : config.nodes[n]? = some node) (hf : g.mForwarders[n]? = some f)
    (hdrained : Drained g n f) {later : List GatewayEvent} {g' : VhalGateway}
    (hlater : Path GatewayStep g later g')
    (hsame : ∀ v ∈ polledOf later propId, ∃ it,
      g.mPreviousValues.lookup propId = some it ∧ ¬Differs it v) :
    ∃ f', g'.mForwarders[n]? = some f' ∧ f'.outcomes propId = f.outcomes propId := by
  have hfollows := VhalGateway.follows_of_path hpath
  obtain ⟨f₀, hf₀, hnodeFollows⟩ := hfollows.nodes n node hnode
  cases hf.symm.trans hf₀
  obtain ⟨f₁, hf₁, hlaterFollows⟩ :=
    (VhalGateway.follows_of_path (hpath.trans hlater)).nodes n node hnode
  obtain ⟨f', hf', calls, hcalls⟩ := sent_prefix_of_path hlater hf
  cases hf₁.symm.trans hf'
  refine ⟨f₁, hf₁, ?_⟩
  have hprevious := (history_spec events propId).2
  have hkept : (polledOf (events ++ later) propId).destutter Differs =
      (polledOf events propId).destutter Differs := by
    rw [polledOf_append]
    refine destutter_append_of_not_differs fun v hv => ?_
    rw [← hprevious, ← hfollows.previous]
    exact hsame v hv
  obtain ⟨more, hmore⟩ := cycles_prefix events later
  have hnone : ofProp propId more.flatten = [] := by
    rw [(history_spec _ propId).1, (history_spec _ propId).1, ← hmore, List.flatten_append,
      ofProp_append] at hkept
    exact List.append_right_eq_self.mp hkept
  have hquiet := ofProp_handed_eq_nil f₁.mMessages hnone
  have hmessages : f₁.mMessages = f.mMessages :=
    hlaterFollows.messages.trans hnodeFollows.messages.symm
  have hbound : ((f₁.outcomes propId).map Prod.fst).length ≤
      ((f.outcomes propId).map Prod.fst).length := by
    obtain ⟨rest, hrest⟩ := hlaterFollows.handed_prefix
    rw [← hmore, List.flatMap_append] at hrest
    have hall := congrArg (fun bs => ofProp propId (bs.flatMap ForwardBatch.values)) hrest
    simp only [List.flatMap_append, ofProp_append, hquiet, List.append_nil] at hall
    rw [hmessages, ← hnodeFollows.map_fst_outcomes hdrained, ← NodeForwarder.map_fst_outcomes]
      at hall
    rw [← hall, List.length_append]
    exact Nat.le_add_right _ _
  have hextend : f₁.outcomes propId = f.outcomes propId ++
      (calls.flatMap callOutcomes).filter fun outcome => outcome.1.prop = propId := by
    rw [NodeForwarder.outcomes, ← hcalls, List.flatMap_append, List.filter_append]
    rfl
  rw [hextend] at hbound ⊢
  simp only [List.length_map, List.length_append] at hbound
  rw [List.length_eq_zero_iff.mp (by omega :
    ((calls.flatMap callOutcomes).filter fun outcome => outcome.1.prop = propId).length = 0),
    List.append_nil]

/-- On a drained node the value remembered for a property is the last one handed over, and it
is that of the last poll. It is the last one set on the node if its call accepted it. Without
a further change it is not handed over again, accepted or not. -/
theorem remembered_last_handed (h : Path GatewayStep (.ofConfig config order) events g)
    (hnode : config.nodes[n]? = some node) (hprop : propId ∈ allPropIds node.messages)
    (hf : g.mForwarders[n]? = some f) (hdrained : Drained g n f) :
    (f.outcomes propId).getLast?.map Prod.fst = g.mPreviousValues.lookup propId ∧
      (∀ last, (polledOf events propId).getLast? = some last → ∃ it,
        g.mPreviousValues.lookup propId = some it ∧ (it = last ∨ ¬Differs it last)) ∧
      (∀ it, (f.outcomes propId).getLast? = some (it, true) →
        (f.accepted propId).getLast? = some it) ∧
      ∀ later g', Path GatewayStep g later g' →
        (∀ v ∈ polledOf later propId, ∃ it,
          g.mPreviousValues.lookup propId = some it ∧ ¬Differs it v) →
        ∃ f', g'.mForwarders[n]? = some f' ∧ f'.outcomes propId = f.outcomes propId := by
  have hfollows := VhalGateway.follows_of_path h
  obtain ⟨f₀, hf₀, hnodeFollows⟩ := hfollows.nodes n node hnode
  cases hf.symm.trans hf₀
  have hspec := history_spec events propId
  refine ⟨?_, ?_, ?_, fun later g' => outcomes_of_unchanged h hnode hf hdrained⟩
  · rw [← List.getLast?_map, hnodeFollows.map_fst_outcomes hdrained,
      getLast?_handed (hnodeFollows.exists_group hprop), hfollows.previous, hspec.2, hspec.1]
  · intro last hlast
    rw [hfollows.previous, hspec.2]
    exact exists_kept_of_getLast? hlast
  · intro it hlast
    obtain ⟨init, hinit⟩ := List.getLast?_eq_some_iff.mp hlast
    rw [NodeForwarder.accepted, hinit, List.filter_append, List.map_append,
      List.getLast?_append]
    rfl

end Outcomes

/-- A call of this step accepts all of its values. -/
def GatewayEvent.Accepting : GatewayEvent → Prop
  | .send _ reply => ∃ statuses, reply = some statuses ∧ ∀ status ∈ statuses, status = statusOk
  | _ => True

/-- The gear is polled and handed to the node, which replies. -/
def callEvents (reply : Reply) : List GatewayEvent :=
  [.poll 0 [⟨0, 0, some (gear 4 1)⟩], .forward, .done, .take 0, .send 0 reply]

private theorem exists_call_path (reply : Reply) : ∃ g f,
    Path GatewayStep (.ofConfig gearConfig (Traversal.ascending Int)) (callEvents reply) g ∧
      g.mForwarders[0]? = some f ∧ f.mQueue = [] ∧ f.inHand = [] ∧
      f.outcomes 0x11400400 = [(gear 4 1, accepts reply 0)] ∧ g.poller = .idle ∧
      g.closing = false ∧ g.mPreviousValues.lookup 0x11400400 = some (gear 4 1) := by
  have hpath := Path.single (GatewayStep.poll
    (g := .ofConfig gearConfig (Traversal.ascending Int)) 0 [⟨0, 0, some (gear 4 1)⟩] rfl rfl)
  have hpath := hpath.snoc (.forward rfl Nat.zero_lt_one)
  have hpath := hpath.snoc (.done rfl (Nat.le_refl 1))
  have hpath := hpath.snoc (@GatewayStep.take _ 0 _ _ _ rfl rfl rfl)
  have hpath := hpath.snoc (@GatewayStep.send _ 0 _ _ reply rfl rfl)
  exact ⟨_, _, hpath, rfl, rfl, rfl, rfl, rfl, rfl, rfl⟩

/-- A gear whose call succeeds is set, and it is the one that is remembered. -/
theorem accepted_gear_set :
    ∃ g f, Path GatewayStep (.ofConfig gearConfig (Traversal.ascending Int))
        (callEvents (some [0])) g ∧ g.mForwarders[0]? = some f ∧ Drained g 0 f ∧
      (f.accepted 0x11400400).getLast? = some (gear 4 1) ∧
      (f.outcomes 0x11400400).getLast?.map Prod.fst = g.mPreviousValues.lookup 0x11400400 := by
  obtain ⟨g, f, hpath, hf, hqueue, hhand, houtcomes, hidle, -, -⟩ := exists_call_path (some [0])
  have hdrained : Drained g 0 f := by
    refine ⟨?_, hqueue, hhand⟩
    rw [VhalGateway.pendingFor, hidle]
  have hlisted : (0x11400400 : Int) ∈ allPropIds [⟨"ivi-basic",
      [⟨0x11400400, "GEAR_SELECTION"⟩]⟩] := by decide
  obtain ⟨hremembered, -, hset, -⟩ := remembered_last_handed hpath rfl hlisted hf hdrained
  refine ⟨g, f, hpath, hf, hdrained, hset _ ?_, hremembered⟩
  rw [houtcomes]
  rfl

/-- The call for the gear fails. It is polled again, unchanged, and every later call would
succeed, but there is none. -/
theorem refused_gear_never_set :
    ¬∀ (config : GatewayConfig) (order : Traversal Int) (events later : List GatewayEvent)
      (g g' : VhalGateway) (n : Nat) (node : GatewayNodeConfig) (f : NodeForwarder)
      (propId : Int) (last : VehiclePropValue),
      Path GatewayStep (.ofConfig config order) events g → Path GatewayStep g later g' →
      config.nodes[n]? = some node → propId ∈ allPropIds node.messages →
      (∀ e ∈ later, e.Accepting) → (polledOf events propId).getLast? = some last →
      (∀ v ∈ polledOf later propId, ¬Differs last v) →
      g'.mForwarders[n]? = some f → Drained g' n f →
      ∃ v, (f.accepted propId).getLast? = some v ∧ (v = last ∨ ¬Differs v last) := by
  intro hconverges
  obtain ⟨g, f, hpath, hf, hqueue, hhand, houtcomes, hidle, hopen, hprevious⟩ :=
    exists_call_path none
  have hlater := Path.single (GatewayStep.poll statusOk [⟨0, 0, some (gear 4 2)⟩] hidle hopen)
  have hunchanged : detectChanges [⟨0, 0, some (gear 4 2)⟩] g.mPreviousValues =
      ([], g.mPreviousValues) := by
    have hsame : isChanged g.mPreviousValues (gear 4 2) = false := by
      rw [isChanged, show (gear 4 2).prop = 0x11400400 from rfl, hprevious]
      rfl
    simp [detectChanges, polledValue, statusOk, hsame]
  have hf' : (g.pollOnce statusOk [⟨0, 0, some (gear 4 2)⟩]).mForwarders[0]? = some f := by
    rw [VhalGateway.pollOnce, if_pos rfl]
    exact hf
  have hdrained : Drained (g.pollOnce statusOk [⟨0, 0, some (gear 4 2)⟩]) 0 f := by
    refine ⟨?_, hqueue, hhand⟩
    exact (VhalGateway.pendingFor_pollOnce g _ 0).trans (congrArg Prod.fst hunchanged)
  obtain ⟨v, hv, -⟩ := hconverges gearConfig _ _ _ g _ 0 _ f 0x11400400 (gear 4 1) hpath hlater rfl
    (by decide) (by simp [GatewayEvent.Accepting]) rfl (by decide) hf' hdrained
  rw [NodeForwarder.accepted, houtcomes] at hv
  cases hv

end VhalCore.Gateway
