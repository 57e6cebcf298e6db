import VhalCore.Models.Subscription.Interpretation.Delivery
import VhalCore.Models.Subscription.Interpretation.Turns

/-!
# Operations as acts on the pairs

Every operation is a sequence of acts, each one event at one pair, followed by the
book-keeping of the held pairs. A loop over pairs performs the acts of its items
in order; a failing item ends it with a failed act. The effect of an operation
names its acts, so that a property of the pairs is carried along any run by the
single steps of the machine of a pair.
-/

namespace VhalCore.Subscription

/-- An event at a pair. -/
abbrev Act := PropIdAreaId × PairEvent

/-- One act: its pair takes a step and every other pair stays as it is. -/
structure PairsStep (X : PropIdAreaId → PairState) (a : Act) (Y : PropIdAreaId → PairState) :
    Prop where
  step : PairStep (X a.1) a.2 (Y a.1)
  frame : ∀ q, q ≠ a.1 → Y q = X q

/-- An invariant of one pair is carried along the acts, which need to preserve it only
where they concern the pair. -/
theorem pair_invariant_of_acts {X Y : PropIdAreaId → PairState} {acts : List Act}
    (h : Path PairsStep X acts Y) (p : PropIdAreaId) {P : PairState → Prop} (hs : P (X p))
    (hstep : ∀ x e y, (p, e) ∈ acts → P x → PairStep x e y → P y) : P (Y p) := by
  refine Path.invariant_of_mem (P := fun X => P (X p)) h hs fun X a Y ha hx hr => ?_
  by_cases hp : p = a.1
  · subst hp
    exact hstep _ _ _ ha hx hr.step
  · rw [hr.frame p hp]
    exact hx

/-- Where no pair is met twice, a pair takes at most one step. -/
theorem pair_step_of_nodup {X Y : PropIdAreaId → PairState} {acts : List Act}
    (h : Path PairsStep X acts Y) (hn : (acts.map Prod.fst).Nodup) (p : PropIdAreaId) :
    ((∀ e, (p, e) ∉ acts) ∧ Y p = X p) ∨ ∃ e, (p, e) ∈ acts ∧ PairStep (X p) e (Y p) := by
  induction h with
  | nil => exact Or.inl ⟨fun _ => List.not_mem_nil, rfl⟩
  | @snoc Y Z acts a hp hr ih =>
      rw [List.map_append, List.map_cons, List.map_nil] at hn
      have hlast : ∀ b ∈ acts, b.1 ≠ a.1 := fun b hb he =>
        (List.nodup_append.mp hn).2.2 _ (List.mem_map_of_mem hb) _ (List.mem_singleton_self _) he
      rcases ih (List.nodup_append.mp hn).1 with ⟨hnone, heq⟩ | ⟨e, he, hstep⟩
      · by_cases hpa : p = a.1
        · subst hpa
          refine Or.inr ⟨a.2, List.mem_append_right _ (List.mem_singleton_self _), ?_⟩
          rw [← heq]
          exact hr.step
        · refine Or.inl ⟨fun e he => ?_, (hr.frame p hpa).trans heq⟩
          rcases List.mem_append.mp he with h | h
          · exact hnone e h
          · rw [List.mem_singleton] at h
            exact hpa (congrArg Prod.fst h)
      · refine Or.inr ⟨e, List.mem_append_left _ he, ?_⟩
        rw [hr.frame p (hlast (p, e) he)]
        exact hstep

/-- The pairs held by each client. -/
abbrev HeldPairs := UnorderedMap ClientIdType (Finset PropIdAreaId)

section Loop

variable {α : Type}

/-- The items a loop completed and its acts: those of all its items, or those of the
items before a failing one together with its failed act. -/
inductive LoopActs (good : α → Act) (bad : α → Bool → Act) (xs : List α) :
    VhalResult → List α → List Act → Prop
  | completed : LoopActs good bad xs (.ok ()) xs (xs.map good)
  | interrupted (done : List α) (x : α) (rest : List α) (first : Bool) (e : StatusError)
      (h : xs = done ++ x :: rest) :
      LoopActs good bad xs (.error e) done (done.map good ++ [bad x first])

/-- A turn that succeeds goes in front of the others. -/
theorem LoopActs.cons {good : α → Act} {bad : α → Bool → Act} {xs done : List α}
    {r : VhalResult} {acts : List Act} (h : LoopActs good bad xs r done acts) (x : α) :
    LoopActs good bad (x :: xs) r (x :: done) (good x :: acts) := by
  cases h with
  | completed => exact .completed
  | interrupted done y rest first e h =>
      subst h
      exact .interrupted (x :: done) y rest first e rfl

/-- The completed items are the first ones. -/
theorem LoopActs.subset {good : α → Act} {bad : α → Bool → Act} {xs done : List α}
    {r : VhalResult} {acts : List Act} (h : LoopActs good bad xs r done acts) : done ⊆ xs := by
  cases h with
  | completed => exact List.Subset.refl _
  | interrupted done y rest first e h =>
      subst h
      exact List.subset_append_left _ _

/-- Every act belongs to an item. -/
theorem LoopActs.mem {good : α → Act} {bad : α → Bool → Act} {xs done : List α}
    {r : VhalResult} {acts : List Act} (h : LoopActs good bad xs r done acts) {a : Act}
    (ha : a ∈ acts) : ∃ x ∈ xs, a = good x ∨ (∃ e, r = .error e) ∧ ∃ first, a = bad x first := by
  cases h with
  | completed =>
      obtain ⟨x, hx, rfl⟩ := List.mem_map.mp ha
      exact ⟨x, hx, Or.inl rfl⟩
  | interrupted done y rest first e h =>
      subst h
      rcases List.mem_append.mp ha with h | h
      · obtain ⟨x, hx, rfl⟩ := List.mem_map.mp h
        exact ⟨x, List.mem_append_left _ hx, Or.inl rfl⟩
      · rw [List.mem_singleton] at h
        exact ⟨y, List.mem_append_right _ (List.mem_cons_self ..),
          Or.inr ⟨⟨e, rfl⟩, first, h⟩⟩

namespace SubscriptionManager

/-- A loop over `xs` whose completed items are `done`, from `s` to `t`. -/
structure LoopEffect (hw : Nat → StatusCode) (good : α → Act) (bad : α → Bool → Act)
    (book : α → HeldPairs → HeldPairs) (xs : List α) (s : SubscriptionManager) (r : VhalResult)
    (t : SubscriptionManager) (done : List α) (acts : List Act) : Prop where
  loop : LoopActs good bad xs r done acts
  pairs : Path PairsStep s.pairState acts t.pairState
  aside : t.aside = s.aside
  held : t.mSubscribedPropsByClient =
    done.foldl (fun m x => book x m) s.mSubscribedPropsByClient
  failed : ∀ e, r = .error e → ∃ n, hw n ≠ .ok

/-- A loop leaves the pairs alone that are not those of its items. -/
theorem LoopEffect.frame {hw : Nat → StatusCode} {good : α → Act} {bad : α → Bool → Act}
    {book : α → HeldPairs → HeldPairs} {xs done : List α} {s t : SubscriptionManager}
    {r : VhalResult} {acts : List Act} (h : LoopEffect hw good bad book xs s r t done acts)
    (hbad : ∀ x first, (bad x first).1 = (good x).1) {p : PropIdAreaId}
    (hp : ∀ x ∈ xs, (good x).1 ≠ p) : t.pairState p = s.pairState p := by
  refine pair_invariant_of_acts (P := fun x => x = s.pairState p) h.pairs p rfl ?_
  intro x e y he
  obtain ⟨item, hitem, heq | ⟨_, first, heq⟩⟩ := h.loop.mem he
  · exact absurd (congrArg Prod.fst heq).symm (hp item hitem)
  · exact absurd ((hbad item first).symm.trans (congrArg Prod.fst heq).symm) (hp item hitem)

/-- A body that performs its act and its book-keeping, or fails without the latter. -/
def TakesTurns (hw : Nat → StatusCode) (good : α → Act) (bad : α → Bool → Act)
    (book : α → HeldPairs → HeldPairs)
    (body : α → SubscriptionManager → VhalResult × SubscriptionManager) : Prop :=
  ∀ x s, (∃ t, body x s = (.ok (), t) ∧ ActsOn (good x).1 (good x).2 s t ∧
      t.mSubscribedPropsByClient = book x s.mSubscribedPropsByClient) ∨
    ∃ e t first, body x s = (.error e, t) ∧ ActsOn (bad x first).1 (bad x first).2 s t ∧
      t.mSubscribedPropsByClient = s.mSubscribedPropsByClient ∧ ∃ n, hw n ≠ .ok

theorem ActsOn.pairs {p : PropIdAreaId} {e : PairEvent} {s t : SubscriptionManager}
    (h : ActsOn p e s t) : PairsStep s.pairState (p, e) t.pairState := ⟨h.step, h.frame⟩

/-- A loop of such bodies performs the acts of its items in order. -/
theorem TakesTurns.forEach {hw : Nat → StatusCode} {good : α → Act} {bad : α → Bool → Act}
    {book : α → HeldPairs → HeldPairs}
    {body : α → SubscriptionManager → VhalResult × SubscriptionManager}
    (hbody : TakesTurns hw good bad book body) (xs : List α) (s : SubscriptionManager) :
    ∃ done acts, LoopEffect hw good bad book xs s (forEach body xs s).1 (forEach body xs s).2
      done acts := by
  induction xs generalizing s with
  | nil =>
      refine ⟨[], [], .completed, .nil _, rfl, rfl, fun e he => ?_⟩
      cases he
  | cons x xs ih =>
      rcases hbody x s with ⟨t, h, hacts, hheld⟩ | ⟨e, t, first, h, hacts, hheld, hfail⟩
      · obtain ⟨done, acts, hrest⟩ := ih t
        rw [forEach_cons_ok h]
        refine ⟨x :: done, good x :: acts, hrest.loop.cons x,
          Path.trans (.single hacts.pairs) hrest.pairs, hrest.aside.trans hacts.aside, ?_,
          hrest.failed⟩
        rw [hrest.held, hheld]
        rfl
      · rw [forEach_cons_error h]
        exact ⟨[], [bad x first], .interrupted [] x xs first e rfl, .single hacts.pairs,
          hacts.aside, hheld, fun _ _ => hfail⟩

end SubscriptionManager

end Loop

end VhalCore.Subscription
