import Mathlib.Data.List.Basic

/-!
# Computations that collect errors

A computation goes on after an error and appends it to a list. It collects a condition and a
value if it appends nothing exactly where the condition holds, and has the value there. The rules
follow the computation: the parts of a sequence are read whatever the parts before them gave,
and a loop reads every item.
-/

namespace VhalCore

variable {ε α β : Type}

/-- What is collected before stays as it is. -/
structure Appends (m : StateM (List ε) α) : Prop where
  run : ∀ errors, ∃ a more, m.run errors = (a, errors ++ more)

/-- Nothing is appended exactly where the condition holds, and then there is the value. -/
structure Collects (m : StateM (List ε) α) (p : Prop) (a : α) : Prop where
  run : ∀ errors, ∃ b more, m.run errors = (b, errors ++ more) ∧ (more = [] ↔ p) ∧ (p → b = a)

namespace Appends

theorem pure (a : α) : Appends (Pure.pure a : StateM (List ε) α) :=
  ⟨fun errors => ⟨a, [], by rw [List.append_nil]; rfl⟩⟩

theorem ite {c : Prop} [Decidable c] {m n : StateM (List ε) α} (hm : Appends m) (hn : Appends n) :
    Appends (if c then m else n) := by
  by_cases h : c
  · rwa [if_pos h]
  · rwa [if_neg h]

end Appends

namespace Collects

variable {m : StateM (List ε) α} {p q : Prop} {a : α}

theorem appends (h : Collects m p a) : Appends m :=
  ⟨fun errors => by
    obtain ⟨b, more, hrun, _⟩ := h.run errors
    exact ⟨b, more, hrun⟩⟩

theorem pure (a : α) : Collects (Pure.pure a : StateM (List ε) α) True a :=
  ⟨fun errors => ⟨a, [], by rw [List.append_nil]; rfl, iff_of_true rfl trivial, fun _ => rfl⟩⟩

/-- An error is appended, and the value does not count. -/
theorem report (error : ε) (a b : α) :
    Collects (do modify (· ++ [error]); Pure.pure b : StateM (List ε) α) False a :=
  ⟨fun _ => ⟨b, [error], rfl, iff_of_false (List.cons_ne_nil _ _) id, False.elim⟩⟩

theorem congr (h : Collects m p a) (hp : p ↔ q) : Collects m q a := by
  rwa [← propext hp]

theorem congr_value {b : α} (h : Collects m p a) (hab : p → a = b) : Collects m p b :=
  ⟨fun errors => by
    obtain ⟨c, more, hrun, hmore, hc⟩ := h.run errors
    exact ⟨c, more, hrun, hmore, fun hp => (hc hp).trans (hab hp)⟩⟩

/-- The second part need only append where the first one has an error. -/
theorem bind_of_ok {f : α → StateM (List ε) β} {b : β} (hm : Collects m p a)
    (hf : p → Collects (f a) q b) (happends : ∀ a, Appends (f a)) :
    Collects (m >>= f) (p ∧ q) b := by
  constructor
  intro errors
  obtain ⟨a', more, hrun, hmore, ha⟩ := hm.run errors
  by_cases hp : p
  · obtain rfl := ha hp
    obtain rfl := hmore.mpr hp
    obtain ⟨b', more', hrun', hmore', hb⟩ := (hf hp).run errors
    refine ⟨b', more', ?_, by simp [hmore', hp], fun h => hb h.2⟩
    rw [StateT.run_bind, hrun, List.append_nil]
    exact hrun'
  · obtain ⟨b', more', hrun'⟩ := (happends a').run (errors ++ more)
    refine ⟨b', more ++ more', ?_, ?_, fun h => absurd h.1 hp⟩
    · rw [StateT.run_bind, hrun, ← List.append_assoc]
      exact hrun'
    · simp [hmore, hp]

/-- The second part collects the same condition whatever the first one gives. -/
theorem bind {f : α → StateM (List ε) β} {value : α → β} (hm : Collects m p a)
    (hf : ∀ a, Collects (f a) q (value a)) : Collects (m >>= f) (p ∧ q) (value a) :=
  hm.bind_of_ok (fun _ => hf a) fun a => (hf a).appends

/-- A loop collects the conditions of all items. -/
theorem foldlM {f : β → α → StateM (List ε) β} {p : α → Prop} {next : β → α → β}
    (hf : ∀ b a, Collects (f b a) (p a) (next b a)) (items : List α) (b : β) :
    Collects (items.foldlM f b) (∀ a ∈ items, p a) (items.foldl next b) := by
  induction items generalizing b with
  | nil => exact (pure b).congr (by simp)
  | cons a items ih =>
      rw [List.foldlM_cons, List.foldl_cons]
      exact ((hf b a).bind fun b' => ih b').congr List.forall_mem_cons.symm

end Collects

end VhalCore
