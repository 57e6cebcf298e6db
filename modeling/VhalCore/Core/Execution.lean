import Mathlib.Data.List.Nodup

/-!
# Loops with early return and runs of a transition system

`forEach` is a loop over a list whose body may fail and then ends the loop, with
the state left as the failing body left it. `EachTurn` speaks about an item in
the state in which its turn begins, and about no item that is never reached.

`Path` is a finite run of a labelled transition relation. An invariant is carried
along a run by its steps.
-/

namespace VhalCore

universe u v w

section Loop

variable {α : Type u} {σ : Type v} {ε : Type w}

/-- Run the body on every item in turn; the first error ends the loop. -/
def forEach (body : α → σ → Except ε Unit × σ) : List α → σ → Except ε Unit × σ
  | [], s => (.ok (), s)
  | x :: xs, s =>
      match body x s with
      | (.ok (), t) => forEach body xs t
      | (.error e, t) => (.error e, t)

/-- Every item whose turn comes satisfies `Q` in the state in which its turn begins. -/
def EachTurn (body : α → σ → Except ε Unit × σ) (Q : σ → α → Prop) : List α → σ → Prop
  | [], _ => True
  | x :: xs, s => Q s x ∧ ∀ t, body x s = (.ok (), t) → EachTurn body Q xs t

variable {body : α → σ → Except ε Unit × σ}

@[simp] theorem forEach_nil (s : σ) : forEach body [] s = (.ok (), s) := rfl

theorem forEach_cons_ok {x : α} {xs : List α} {s t : σ} (h : body x s = (.ok (), t)) :
    forEach body (x :: xs) s = forEach body xs t := by
  simp only [forEach, h]

theorem forEach_cons_error {x : α} {xs : List α} {s t : σ} {e : ε}
    (h : body x s = (.error e, t)) : forEach body (x :: xs) s = (.error e, t) := by
  simp only [forEach, h]

/-- The outcome of a body is a success or a failure, with a state in either case. -/
theorem outcome_cases (r : Except ε Unit × σ) :
    (∃ t, r = (.ok (), t)) ∨ ∃ e t, r = (.error e, t) := by
  rcases r with ⟨_ | ⟨⟩, t⟩
  · exact Or.inr ⟨_, t, rfl⟩
  · exact Or.inl ⟨t, rfl⟩

/-- What every turn preserves under its own condition is preserved by the whole loop, failed or
not. -/
theorem forEach_invariant_of_eachTurn {P : σ → Prop} {Q : σ → α → Prop} {xs : List α} {s : σ}
    (hs : P s) (hq : EachTurn body Q xs s)
    (hstep : ∀ x ∈ xs, ∀ t, P t → Q t x → P (body x t).2) : P (forEach body xs s).2 := by
  induction xs generalizing s with
  | nil => exact hs
  | cons x xs ih =>
      have hx := hstep x (List.mem_cons_self ..) s hs hq.1
      rcases outcome_cases (body x s) with ⟨t, h⟩ | ⟨e, t, h⟩
      · rw [h] at hx
        rw [forEach_cons_ok h]
        exact ih hx (hq.2 t h) fun y hy => hstep y (List.mem_cons_of_mem _ hy)
      · rw [h] at hx
        rw [forEach_cons_error h]
        exact hx

/-- A condition of every turn follows from one that an invariant turns into it. -/
theorem EachTurn.mono {P : σ → Prop} {Q Q' : σ → α → Prop} {xs : List α} {s : σ}
    (hs : P s) (hq : EachTurn body Q xs s)
    (hstep : ∀ x ∈ xs, ∀ t, P t → Q t x → P (body x t).2)
    (himp : ∀ x ∈ xs, ∀ t, P t → Q t x → Q' t x) : EachTurn body Q' xs s := by
  induction xs generalizing s with
  | nil => trivial
  | cons x xs ih =>
      refine ⟨himp x (List.mem_cons_self ..) s hs hq.1, fun t ht => ?_⟩
      have hx := hstep x (List.mem_cons_self ..) s hs hq.1
      rw [ht] at hx
      exact ih hx (hq.2 t ht) (fun y hy => hstep y (List.mem_cons_of_mem _ hy))
        fun y hy => himp y (List.mem_cons_of_mem _ hy)

/-- Two conditions on the turns are equivalent if they are so under an invariant that the
second one keeps. -/
theorem EachTurn.congr {P : σ → Prop} {Q Q' : σ → α → Prop} {xs : List α} {s : σ} (hs : P s)
    (hstep : ∀ x ∈ xs, ∀ t, P t → (Q t x ↔ Q' t x) ∧ (Q' t x → P (body x t).2)) :
    EachTurn body Q xs s ↔ EachTurn body Q' xs s :=
  ⟨fun h => EachTurn.mono hs h
      (fun x hx t ht hq => (hstep x hx t ht).2 ((hstep x hx t ht).1.mp hq))
      fun x hx t ht hq => (hstep x hx t ht).1.mp hq,
    fun h => EachTurn.mono hs h (fun x hx t ht hq => (hstep x hx t ht).2 hq)
      fun x hx t ht hq => (hstep x hx t ht).1.mpr hq⟩

/-- So the second condition keeps the invariant over the whole loop. -/
theorem EachTurn.congr_and_invariant {P : σ → Prop} {Q Q' : σ → α → Prop} {xs : List α}
    {s t : σ} {r : Except ε Unit} (hs : P s)
    (hstep : ∀ x ∈ xs, ∀ t, P t → (Q t x ↔ Q' t x) ∧ (Q' t x → P (body x t).2))
    (hloop : forEach body xs s = (r, t)) :
    (EachTurn body Q xs s ↔ EachTurn body Q' xs s) ∧ (EachTurn body Q' xs s → P t) := by
  refine ⟨EachTurn.congr hs hstep, fun hq => ?_⟩
  have hend := forEach_invariant_of_eachTurn hs hq fun x hx u hu => (hstep x hx u hu).2
  rwa [hloop] at hend

theorem EachTurn.of_forall {Q : σ → α → Prop} (h : ∀ s x, Q s x) (xs : List α) (s : σ) :
    EachTurn body Q xs s := by
  induction xs generalizing s with
  | nil => trivial
  | cons x xs ih => exact ⟨h s x, fun t _ => ih t⟩

/-- The condition of a turn that was reached. -/
theorem EachTurn.at {Q : σ → α → Prop} {done rest : List α} {x : α} {s t : σ}
    (hq : EachTurn body Q (done ++ x :: rest) s) (hd : forEach body done s = (.ok (), t)) :
    Q t x := by
  induction done generalizing s with
  | nil =>
      cases hd
      exact hq.1
  | cons y done ih =>
      rcases outcome_cases (body y s) with ⟨u, h⟩ | ⟨e, u, h⟩
      · rw [forEach_cons_ok h] at hd
        exact ih (hq.2 u h) hd
      · rw [forEach_cons_error h] at hd
        exact absurd hd (by simp)

/-- A failed loop completed some items and failed in the turn of the next one. -/
theorem forEach_error_split {xs : List α} {s t : σ} {e : ε}
    (h : forEach body xs s = (.error e, t)) :
    ∃ done x rest u, xs = done ++ x :: rest ∧ forEach body done s = (.ok (), u) ∧
      body x u = (.error e, t) := by
  induction xs generalizing s with
  | nil => exact absurd h (by simp)
  | cons x xs ih =>
      rcases outcome_cases (body x s) with ⟨u, hx⟩ | ⟨e', u, hx⟩
      · rw [forEach_cons_ok hx] at h
        obtain ⟨done, y, rest, v, rfl, hd, hy⟩ := ih h
        exact ⟨x :: done, y, rest, v, rfl, by rw [forEach_cons_ok hx, hd], hy⟩
      · rw [forEach_cons_error hx] at h
        exact ⟨[], x, xs, s, rfl, rfl, hx.trans h⟩

/-- In a loop that succeeds every turn succeeds. -/
theorem eachTurn_of_forEach_ok {xs : List α} {s t : σ} (h : forEach body xs s = (.ok (), t)) :
    EachTurn body (fun u x => ∃ v, body x u = (.ok (), v)) xs s := by
  induction xs generalizing s with
  | nil => trivial
  | cons x xs ih =>
      rcases outcome_cases (body x s) with ⟨u, hx⟩ | ⟨e, u, hx⟩
      · rw [forEach_cons_ok hx] at h
        refine ⟨⟨u, hx⟩, fun v hv => ?_⟩
        cases hx.symm.trans hv
        exact ih h
      · rw [forEach_cons_error hx] at h
        exact absurd h (by simp)

/-- A loop over two lists is the loop over the second after the loop over the first. -/
theorem forEach_append (xs ys : List α) (s : σ) :
    forEach body (xs ++ ys) s =
      match forEach body xs s with
      | (.ok (), t) => forEach body ys t
      | (.error e, t) => (.error e, t) := by
  induction xs generalizing s with
  | nil => rfl
  | cons x xs ih =>
      rcases outcome_cases (body x s) with ⟨t, h⟩ | ⟨e, t, h⟩
      · rw [List.cons_append, forEach_cons_ok h, forEach_cons_ok h, ih]
      · rw [List.cons_append, forEach_cons_error h, forEach_cons_error h]

/-- A loop over the images is the loop with the function in its body. -/
theorem forEach_map {β : Type u} (g : β → α) (ys : List β) (s : σ) :
    forEach body (ys.map g) s = forEach (fun y => body (g y)) ys s := by
  induction ys generalizing s with
  | nil => rfl
  | cons y ys ih =>
      rcases outcome_cases (body (g y) s) with ⟨t, h⟩ | ⟨e, t, h⟩
      · rw [List.map_cons, forEach_cons_ok h, ih]
        simp only [forEach, h]
      · rw [List.map_cons, forEach_cons_error h]
        simp only [forEach, h]

/-- A loop nested in a loop is one loop over the pairs it visits. -/
theorem forEach_nested {β : Type u} (inner : α → List β) (f : α → β → σ → Except ε Unit × σ)
    (xs : List α) (s : σ) :
    forEach (fun x => forEach (f x) (inner x)) xs s =
      forEach (fun p : α × β => f p.1 p.2)
        (xs.flatMap fun x => (inner x).map fun y => (x, y)) s := by
  induction xs generalizing s with
  | nil => rfl
  | cons x xs ih =>
      rw [List.flatMap_cons, forEach_append, forEach_map]
      rcases outcome_cases (forEach (f x) (inner x) s) with ⟨t, h⟩ | ⟨e, t, h⟩
      · simp only [forEach, h]
        exact ih t
      · simp only [forEach, h]

end Loop

section Fold

variable {α : Type u} {σ : Type v} {τ : Type w}

/-- A partial fold observed through `O` is a total one, as long as an invariant allows
every step to be observed so. -/
theorem foldlM_observe {f : σ → α → Option σ} {g : τ → α → τ} {O : σ → τ} {P : σ → Prop}
    {xs : List α} {s t : σ} (h : xs.foldlM f s = some t) (hs : P s)
    (hstep : ∀ x ∈ xs, ∀ a b, P a → f a x = some b → P b ∧ O b = g (O a) x) :
    P t ∧ O t = xs.foldl g (O s) := by
  induction xs generalizing s with
  | nil =>
      cases h
      exact ⟨hs, rfl⟩
  | cons x xs ih =>
      rw [List.foldlM_cons] at h
      obtain ⟨a, ha, hrest⟩ := Option.bind_eq_some_iff.mp h
      obtain ⟨hp, hv⟩ := hstep x (List.mem_cons_self ..) s a hs ha
      have htail := ih hrest hp fun y hy => hstep y (List.mem_cons_of_mem _ hy)
      rw [hv] at htail
      exact htail

/-- What every step of a partial fold preserves is preserved by the fold. -/
theorem foldlM_invariant {f : σ → α → Option σ} {P : σ → Prop} {xs : List α} {s t : σ}
    (h : xs.foldlM f s = some t) (hs : P s)
    (hstep : ∀ x ∈ xs, ∀ a b, P a → f a x = some b → P b) : P t :=
  (foldlM_observe (O := fun _ => ()) (g := fun _ _ => ()) h hs
    fun x hx a b hp hf => ⟨hstep x hx a b hp hf, rfl⟩).1

/-- Every item of a defined partial fold has its turn, and the turn is defined. -/
theorem foldlM_turn {f : σ → α → Option σ} {P : σ → Prop} {xs : List α} {s t : σ}
    (h : xs.foldlM f s = some t) (hs : P s)
    (hstep : ∀ x ∈ xs, ∀ a b, P a → f a x = some b → P b) {x : α} (hx : x ∈ xs) :
    ∃ a b, P a ∧ f a x = some b := by
  induction xs generalizing s with
  | nil => exact absurd hx List.not_mem_nil
  | cons y ys ih =>
      rw [List.foldlM_cons] at h
      obtain ⟨a, ha, hrest⟩ := Option.bind_eq_some_iff.mp h
      rcases List.mem_cons.mp hx with rfl | hx
      · exact ⟨s, a, hs, ha⟩
      · have hnext := hstep y (List.mem_cons_self ..) s a hs ha
        exact ih hrest hnext (fun z hz => hstep z (List.mem_cons_of_mem _ hz)) hx

/-- A partial fold whose steps are all defined is defined. -/
theorem foldlM_defined {f : σ → α → Option σ} {P : σ → Prop} {xs : List α} {s : σ} (hs : P s)
    (hstep : ∀ x ∈ xs, ∀ a, P a → ∃ b, f a x = some b ∧ P b) :
    ∃ t, xs.foldlM f s = some t ∧ P t := by
  induction xs generalizing s with
  | nil => exact ⟨s, rfl, hs⟩
  | cons x xs ih =>
      obtain ⟨a, ha, hp⟩ := hstep x (List.mem_cons_self ..) s hs
      obtain ⟨t, ht, hpt⟩ := ih hp fun y hy => hstep y (List.mem_cons_of_mem _ hy)
      refine ⟨t, ?_, hpt⟩
      rw [List.foldlM_cons, ha]
      exact ht

/-- A fold that observes at each item what the item says, if it says something, ends with what
was said last. -/
theorem foldl_lastWord {f : σ → α → σ} {O : σ → τ} {word : α → Option τ}
    (h : ∀ s a, O (f s a) = (word a).getD (O s)) (s : σ) (xs : List α) :
    O (xs.foldl f s) = ((xs.filterMap word).getLast?).getD (O s) := by
  induction xs generalizing s with
  | nil => rfl
  | cons a xs ih =>
      rw [List.foldl_cons, ih, h]
      cases ha : word a with
      | none =>
          rw [List.filterMap_cons_none ha]
          rfl
      | some said =>
          rw [List.filterMap_cons_some ha, List.getLast?_cons]
          rfl

/-- A fold that reacts to one item only, over a list without repetition. -/
theorem foldl_select {g : τ → α → τ} {F : τ → τ} {a : α} {xs : List α} (hn : xs.Nodup)
    (ha : a ∈ xs → ∀ b, g b a = F b) (hx : ∀ x ∈ xs, x ≠ a → ∀ b, g b x = b) (b : τ)
    [Decidable (a ∈ xs)] : xs.foldl g b = if a ∈ xs then F b else b := by
  have hid (ys : List α) (hys : ∀ x ∈ ys, x ∈ xs ∧ x ≠ a) (b : τ) : ys.foldl g b = b := by
    induction ys generalizing b with
    | nil => rfl
    | cons y ys ih =>
        obtain ⟨hy, hya⟩ := hys y (List.mem_cons_self ..)
        rw [List.foldl_cons, hx y hy hya b]
        exact ih (fun x hx => hys x (List.mem_cons_of_mem _ hx)) b
  by_cases hmem : a ∈ xs
  · obtain ⟨before, after, rfl⟩ := List.append_of_mem hmem
    have hd := List.nodup_middle.mp hn
    have hnot := (List.nodup_cons.mp hd).1
    rw [if_pos hmem, List.foldl_append, List.foldl_cons, hid before, ha hmem, hid after]
    · intro x hx'
      refine ⟨List.mem_append_right _ (List.mem_cons_of_mem _ hx'), ?_⟩
      rintro rfl
      exact hnot (List.mem_append_right _ hx')
    · intro x hx'
      refine ⟨List.mem_append_left _ hx', ?_⟩
      rintro rfl
      exact hnot (List.mem_append_left _ hx')
  · rw [if_neg hmem]
    exact hid xs (fun x hx' => ⟨hx', fun h => hmem (h ▸ hx')⟩) b

end Fold

section Run

variable {σ : Type u} {α : Type v}

/-- A finite run of a labelled transition relation, with its labels in order. -/
inductive Path (R : σ → α → σ → Prop) : σ → List α → σ → Prop
  | nil (s : σ) : Path R s [] s
  | snoc {s t u : σ} {as : List α} {a : α} : Path R s as t → R t a u → Path R s (as ++ [a]) u

variable {R R' : σ → α → σ → Prop}

/-- An invariant of the steps holds in every state a run reaches. -/
theorem Path.invariant {P : σ → Prop} {s u : σ} {as : List α} (h : Path R s as u) (hs : P s)
    (hstep : ∀ t a u, P t → R t a u → P u) : P u := by
  induction h with
  | nil => exact hs
  | snoc _ hr ih => exact hstep _ _ _ ih hr

/-- The same rule when only the labels of the run are known to preserve the invariant. -/
theorem Path.invariant_of_mem {P : σ → Prop} {s u : σ} {as : List α} (h : Path R s as u)
    (hs : P s) (hstep : ∀ t a u, a ∈ as → P t → R t a u → P u) : P u := by
  induction h with
  | nil => exact hs
  | snoc _ hr ih =>
      exact hstep _ _ _ (List.mem_append_right _ (List.mem_singleton_self _))
        (ih fun t a u ha => hstep t a u (List.mem_append_left _ ha)) hr

/-- Where the labels say something about a part of the state, a run ends with what was said
last. -/
theorem Path.lastWord {τ : Type w} {I : σ → Prop} {O : σ → Option τ} {word : α → Option τ}
    {s u : σ} {as : List α} (h : Path R s as u) (hs : I s)
    (hkept : ∀ t a u, I t → R t a u → I u)
    (hstep : ∀ t a u, I t → R t a u → O u = (word a).or (O t)) :
    O u = ((as.filterMap word).getLast?).or (O s) := by
  induction h with
  | nil => rfl
  | @snoc t u as a hp hr ih =>
      rw [hstep t a u (hp.invariant hs hkept) hr, ih, List.filterMap_append,
        List.getLast?_append, Option.or_assoc]
      cases ha : word a with
      | none => rw [List.filterMap_cons_none ha, List.filterMap_nil, List.getLast?_nil]
      | some said => rw [List.filterMap_cons_some ha, List.filterMap_nil, List.getLast?_singleton]

/-- A forward simulation takes runs to runs with the same labels. -/
theorem Path.simulated {τ : Type w} {I : σ → Prop} {S : τ → α → τ → Prop} {abstraction : σ → τ}
    {s u : σ} {as : List α} (h : Path R s as u) (hs : I s)
    (hkept : ∀ t a u, I t → R t a u → I u)
    (hstep : ∀ t a u, I t → R t a u → S (abstraction t) a (abstraction u)) :
    Path S (abstraction s) as (abstraction u) := by
  induction h with
  | nil => exact .nil _
  | snoc hp hr ih => exact .snoc ih (hstep _ _ _ (hp.invariant hs hkept) hr)

theorem Path.single {s u : σ} {a : α} (h : R s a u) : Path R s [a] u := .snoc (.nil s) h

/-- Two paths that meet make one. -/
theorem Path.trans {s t u : σ} {as bs : List α} (h₁ : Path R s as t) (h₂ : Path R t bs u) :
    Path R s (as ++ bs) u := by
  induction h₂ with
  | nil => simpa only [List.append_nil] using h₁
  | snoc _ hr ih =>
      rw [← List.append_assoc]
      exact .snoc ih hr

theorem Path.eq_of_nil {s u : σ} (h : Path R s [] u) : s = u := by
  generalize has : ([] : List α) = as at h
  cases h with
  | nil => rfl
  | snoc _ _ => exact absurd has (by simp)

/-- A path of one event is a step. -/
theorem Path.of_singleton {s u : σ} {a : α} (h : Path R s [a] u) : R s a u := by
  generalize has : [a] = as at h
  cases h with
  | nil => exact absurd has (by simp)
  | snoc hp hr =>
      obtain ⟨h1, h2⟩ := List.append_inj' (show [] ++ [_] = _ from has) rfl
      subst h1
      cases h2
      rwa [hp.eq_of_nil]

/-- A run passes through a state at each of its labels. -/
theorem Path.split {s u : σ} (as : List α) {bs : List α} (h : Path R s (as ++ bs) u) :
    ∃ t, Path R s as t ∧ Path R t bs u := by
  generalize hcs : as ++ bs = cs at h
  induction h generalizing bs with
  | nil =>
      obtain ⟨rfl, rfl⟩ := List.append_eq_nil_iff.mp hcs
      exact ⟨_, .nil _, .nil _⟩
  | snoc hp hr ih =>
      rcases List.eq_nil_or_concat bs with rfl | ⟨bs', b, rfl⟩
      · rw [List.append_nil] at hcs
        subst hcs
        exact ⟨_, .snoc hp hr, .nil _⟩
      · rw [List.concat_eq_append, ← List.append_assoc] at hcs
        obtain ⟨hinit, hlast⟩ := List.append_inj' hcs rfl
        cases hlast
        obtain ⟨t, h₁, h₂⟩ := ih hinit
        exact ⟨t, h₁, by rw [List.concat_eq_append]; exact .snoc h₂ hr⟩

/-- The step of a run at one of its labels. -/
theorem Path.step_at {s u : σ} {as bs : List α} {a : α} (h : Path R s (as ++ a :: bs) u) :
    ∃ t v, Path R s as t ∧ R t a v ∧ Path R v bs u := by
  obtain ⟨t, h₁, h₂⟩ := h.split as
  obtain ⟨v, h₃, h₄⟩ := Path.split [a] h₂
  exact ⟨t, v, h₁, h₃.of_singleton, h₄⟩

/-- An event of an extended run is one of the run or the new event. -/
theorem split_snoc {events before after : List α} {a e : α}
    (h : events ++ [e] = before ++ a :: after) :
    (∃ after', after = after' ++ [e] ∧ events = before ++ a :: after') ∨
      after = [] ∧ before = events ∧ a = e := by
  rcases List.eq_nil_or_concat after with rfl | ⟨after', b, rfl⟩
  · obtain ⟨h1, h2⟩ := List.append_inj' h rfl
    cases h2
    exact Or.inr ⟨rfl, h1.symm, rfl⟩
  · rw [show before ++ a :: after'.concat b = (before ++ a :: after') ++ [b] by simp] at h
    obtain ⟨h1, h2⟩ := List.append_inj' h rfl
    cases h2
    exact Or.inl ⟨after', List.concat_eq_append, h1⟩

/-- A run of a relation is a run of every larger one. -/
theorem Path.mono {s u : σ} {as : List α} (h : Path R s as u)
    (himp : ∀ t a u, R t a u → R' t a u) : Path R' s as u := by
  induction h with
  | nil => exact .nil _
  | snoc _ hr ih => exact .snoc ih (himp _ _ _ hr)

/-- Two conditions on the steps select the same runs if they are equivalent for the steps
from an invariant that the selected steps keep. -/
theorem Path.restrict_congr {I : σ → Prop} {P Q : σ → α → σ → Prop} {s u : σ} {as : List α}
    (hs : I s)
    (hstep : ∀ t a u, I t → R t a u → (P t a u ↔ Q t a u) ∧ (Q t a u → I u)) :
    Path (fun t a u => R t a u ∧ P t a u) s as u ↔
      Path (fun t a u => R t a u ∧ Q t a u) s as u := by
  constructor
  · intro h
    have hboth : Path (fun t a u => R t a u ∧ Q t a u) s as u ∧ I u := by
      induction h with
      | nil => exact ⟨.nil _, hs⟩
      | snoc _ hr ih =>
          obtain ⟨hiff, hkeep⟩ := hstep _ _ _ ih.2 hr.1
          have hq := hiff.mp hr.2
          exact ⟨.snoc ih.1 ⟨hr.1, hq⟩, hkeep hq⟩
    exact hboth.1
  · intro h
    have hboth : Path (fun t a u => R t a u ∧ P t a u) s as u ∧ I u := by
      induction h with
      | nil => exact ⟨.nil _, hs⟩
      | snoc _ hr ih =>
          obtain ⟨hiff, hkeep⟩ := hstep _ _ _ ih.2 hr.1
          exact ⟨.snoc ih.1 ⟨hr.1, hiff.mpr hr.2⟩, hkeep hr.2⟩
    exact hboth.1

/-- Where a step keeps an invariant exactly under a condition, the runs that stay in the
invariant are those whose steps all meet the condition. -/
theorem Path.restrict_iff {P : σ → Prop} {Q : σ → α → Prop} {s u : σ} {as : List α} (hs : P s)
    (hstep : ∀ t a u, P t → R t a u → (P u ↔ Q t a)) :
    Path (fun t a u => R t a u ∧ P u) s as u ↔ Path (fun t a u => R t a u ∧ Q t a) s as u :=
  Path.restrict_congr hs fun t a u ht hr => ⟨hstep t a u ht hr, (hstep t a u ht hr).mpr⟩

end Run

end VhalCore
