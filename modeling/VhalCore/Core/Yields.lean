import Mathlib.Data.List.Basic

/-!
# What the result of a stateful computation satisfies

A computation over a state yields a property if its result has the property from every
state. The rules follow the computation: a bind yields what its continuation yields, and
a loop yields what every turn keeps.
-/

namespace VhalCore

variable {σ α β : Type}

/-- From every state the result has the property. -/
structure Yields (m : StateM σ α) (P : α → Prop) : Prop where
  run : ∀ s, P (m.run s).1

namespace Yields

theorem pure {P : α → Prop} {a : α} (h : P a) : Yields (Pure.pure a : StateM σ α) P :=
  ⟨fun _ => h⟩

/-- The continuation may use what the first part yields. -/
theorem bind {m : StateM σ α} {f : α → StateM σ β} {Q : α → Prop} {P : β → Prop} (hm : Yields m Q)
    (hf : ∀ a, Q a → Yields (f a) P) : Yields (m >>= f) P := by
  constructor
  intro s
  exact (hf (m.run s).1 (hm.run s)).run (m.run s).2

/-- The continuation yields the property whatever the first part gives. -/
theorem bind_any {m : StateM σ α} {f : α → StateM σ β} {P : β → Prop}
    (hf : ∀ a, Yields (f a) P) : Yields (m >>= f) P := by
  constructor
  intro s
  exact (hf (m.run s).1).run (m.run s).2

theorem ite {c : Prop} [Decidable c] {m n : StateM σ α} {P : α → Prop} (hm : Yields m P)
    (hn : Yields n P) : Yields (if c then m else n) P := by
  by_cases h : c
  · rwa [if_pos h]
  · rwa [if_neg h]

/-- A loop yields what holds before it and is kept by every turn. -/
theorem foldlM {f : β → α → StateM σ β} {P : β → Prop}
    (hf : ∀ b a, P b → Yields (f b a) P) (l : List α) {b : β} (hb : P b) :
    Yields (l.foldlM f b) P := by
  induction l generalizing b with
  | nil => exact pure hb
  | cons a l ih =>
      rw [List.foldlM_cons]
      exact bind (hf b a hb) fun b' hb' => ih hb'

end Yields

end VhalCore
