import Mathlib.Data.Multiset.Filter
import Mathlib.Order.Lattice

/-!
# Priority queues

The content of a priority queue is a multiset, and its top is an element with the smallest key.
Which one is the top among several with the same key is open. `PopWhile` is the loop that pops
the top as long as it satisfies a condition.
-/

namespace VhalCore

variable {α : Type*} {κ : Type*} [LinearOrder κ] (key : α → κ)

/-- An element with the smallest key. -/
def IsQueueTop (q : Multiset α) (a : α) : Prop := a ∈ q ∧ ∀ b ∈ q, key a ≤ key b

/-- A queue with elements has a first one. -/
theorem exists_isQueueTop {q : Multiset α} (h : q ≠ 0) : ∃ a, IsQueueTop key q a := by
  induction q using Multiset.induction with
  | empty => exact absurd rfl h
  | cons a q ih =>
      by_cases hq : q = 0
      · subst hq
        exact ⟨a, by simp [IsQueueTop]⟩
      · obtain ⟨b, hb, hmin⟩ := ih hq
        rcases le_total (key a) (key b) with hab | hba
        · refine ⟨a, Multiset.mem_cons_self a q, fun c hc => ?_⟩
          rcases Multiset.mem_cons.mp hc with rfl | hc
          · exact le_refl _
          · exact hab.trans (hmin c hc)
        · refine ⟨b, Multiset.mem_cons_of_mem hb, fun c hc => ?_⟩
          rcases Multiset.mem_cons.mp hc with rfl | hc
          · exact hba
          · exact hmin c hc

variable [DecidableEq α] (P : α → Prop)

/-- The loop with the queue it leaves and the top at which it stops, none if the queue is
empty. -/
inductive PopWhile : Multiset α → Multiset α → Option α → Prop
  | empty : PopWhile 0 0 none
  | stop {q : Multiset α} {a : α} : IsQueueTop key q a → ¬P a → PopWhile q q (some a)
  | pop {q q' : Multiset α} {a : α} {r : Option α} :
      IsQueueTop key q a → P a → PopWhile (q.erase a) q' r → PopWhile q q' r

variable {key P}

/-- What is left on top is the first of the rest, and is not to be popped. -/
theorem PopWhile.isQueueTop {q q' : Multiset α} {a : α} (h : PopWhile key P q q' (some a)) :
    IsQueueTop key q' a ∧ ¬P a := by
  generalize hr : some a = r at h
  induction h with
  | empty => cases hr
  | stop htop hnot =>
      cases hr
      exact ⟨htop, hnot⟩
  | pop _ _ _ ih => exact ih hr

/-- The loop keeps all elements that do not satisfy the condition. -/
theorem PopWhile.filter_eq {q q' : Multiset α} {r : Option α} (h : PopWhile key P q q' r)
    {Q : α → Prop} [DecidablePred Q] (hQ : ∀ a, P a → ¬Q a) : q'.filter Q = q.filter Q := by
  induction h with
  | empty => rfl
  | stop _ _ => rfl
  | @pop q q' a r htop hp _ ih =>
      rw [ih, ← Multiset.cons_erase htop.1, Multiset.filter_cons_of_neg _ (hQ a hp),
        Multiset.erase_cons_head]

/-- The loop stops at the only element that does not satisfy the condition. -/
theorem exists_popWhile_of_unique (key : α → κ) {q : Multiset α} {a : α} (ha : a ∈ q)
    (hnot : ¬P a) (hother : ∀ b ∈ q, b ≠ a → P b) : ∃ q', PopWhile key P q q' (some a) := by
  induction hn : q.card generalizing q with
  | zero =>
      rw [Multiset.card_eq_zero.mp hn] at ha
      cases Multiset.notMem_zero a ha
  | succ n ih =>
      obtain ⟨b, htop⟩ := exists_isQueueTop key (q := q) (by
        rintro rfl
        cases Multiset.notMem_zero a ha)
      by_cases hb : b = a
      · subst hb
        exact ⟨q, .stop htop hnot⟩
      · have hpop := ih ((Multiset.mem_erase_of_ne (Ne.symm hb)).mpr ha)
          (fun c hc => hother c (Multiset.mem_of_mem_erase hc)) (by
            rw [Multiset.card_erase_of_mem htop.1, hn]
            rfl)
        obtain ⟨q', hq'⟩ := hpop
        exact ⟨q', .pop htop (hother b htop.1 hb) hq'⟩

end VhalCore
