import Mathlib.Data.Nat.Init
import Mathlib.Order.Lattice
import VhalCore.Core.Execution

/-!
# Infinite runs and fairness

An `Execution` is an infinite run of a labelled transition relation. A finite run becomes
one if it ends in a state in which a step can be repeated that changes nothing.

In an execution that is fair to a label the label does not stay possible forever without
being taken. So what only such a step is missing for happens after some time.
-/

namespace VhalCore

universe u v

variable {σ : Type u} {α : Type v} {R : σ → α → σ → Prop} {s₀ : σ}

/-- An infinite run of a labelled transition relation. -/
structure Execution (R : σ → α → σ → Prop) (s₀ : σ) where
  state : Nat → σ
  event : Nat → α
  starts : state 0 = s₀
  step : ∀ i, R (state i) (event i) (state (i + 1))

namespace Execution

variable {x : Execution R s₀} {P Q : σ → Prop}

/-- What every step keeps holds at all times. -/
theorem always (x : Execution R s₀) (hs : P s₀)
    (hstep : ∀ i, P (x.state i) → P (x.state (i + 1))) (i : Nat) : P (x.state i) := by
  induction i with
  | zero =>
      rw [x.starts]
      exact hs
  | succ i ih => exact hstep i ih

/-- What every step keeps holds from the time on at which it first does. -/
theorem always_from {i j : Nat} (hij : i ≤ j) (h : P (x.state i))
    (hstep : ∀ k, P (x.state k) → P (x.state (k + 1))) : P (x.state j) := by
  induction j, hij using Nat.le_induction with
  | base => exact h
  | succ k _ ih => exact hstep k ih

/-- A label that stays possible is taken. -/
def FairTo (x : Execution R s₀) (a : α) : Prop :=
  ∀ i, (∀ j, i ≤ j → ∃ t, R (x.state j) a t) → ∃ j, i ≤ j ∧ x.event j = a

/-- Where a label stays possible until `Q` and its step gives `Q`, it does so at some time. -/
theorem FairTo.leadsTo {a : α} (hfair : x.FairTo a) {i : Nat} (h : P (x.state i))
    (hstay : ∀ j, P (x.state j) → P (x.state (j + 1)) ∨ Q (x.state (j + 1)))
    (henabled : ∀ j, P (x.state j) → ∃ t, R (x.state j) a t)
    (hdone : ∀ j, P (x.state j) → x.event j = a → Q (x.state (j + 1))) :
    ∃ j, i ≤ j ∧ Q (x.state j) := by
  by_contra hnever
  have hnot (j : Nat) (hj : i ≤ j) : ¬Q (x.state j) := fun hq => hnever ⟨j, hj, hq⟩
  have hkept (j : Nat) (hj : i ≤ j) : P (x.state j) := by
    induction j, hj using Nat.le_induction with
    | base => exact h
    | succ k hk ih => exact (hstay k ih).resolve_right (hnot (k + 1) (Nat.le_succ_of_le hk))
  obtain ⟨j, hj, hevent⟩ := hfair i fun j hj => henabled j (hkept j hj)
  exact hnot (j + 1) (Nat.le_succ_of_le hj) (hdone j (hkept j hj) hevent)

/-- Where a label stays possible until `Q`, its steps lower a measure and no other step
raises it, `Q` holds at some time. -/
theorem FairTo.leadsTo_of_measure {β : Type*} [Preorder β] [WellFoundedLT β] {a : α}
    (hfair : x.FairTo a) (measure : σ → β) {i : Nat} (h : P (x.state i))
    (hstay : ∀ j, P (x.state j) → ¬Q (x.state j) → P (x.state (j + 1)))
    (henabled : ∀ j, P (x.state j) → ¬Q (x.state j) → ∃ t, R (x.state j) a t)
    (hkeeps : ∀ j, P (x.state j) → ¬Q (x.state j) →
      measure (x.state (j + 1)) ≤ measure (x.state j))
    (hlowers : ∀ j, P (x.state j) → ¬Q (x.state j) → x.event j = a →
      measure (x.state (j + 1)) < measure (x.state j)) : ∃ j, i ≤ j ∧ Q (x.state j) := by
  generalize hm : measure (x.state i) = m
  induction m using WellFoundedLT.induction generalizing i with
  | ind m ih =>
      by_contra hnever
      have hnot (j : Nat) (hj : i ≤ j) : ¬Q (x.state j) := fun hq => hnever ⟨j, hj, hq⟩
      have hkept (j : Nat) (hj : i ≤ j) : P (x.state j) ∧ measure (x.state j) ≤ m := by
        induction j, hj using Nat.le_induction with
        | base => exact ⟨h, hm.le⟩
        | succ k hk ih =>
            exact ⟨hstay k ih.1 (hnot k hk), (hkeeps k ih.1 (hnot k hk)).trans ih.2⟩
      obtain ⟨j, hj, hevent⟩ := hfair i fun j hj => henabled j (hkept j hj).1 (hnot j hj)
      have hlower := hlowers j (hkept j hj).1 (hnot j hj) hevent
      have hnext := hkept (j + 1) (Nat.le_succ_of_le hj)
      obtain ⟨k, hk, hq⟩ := ih _ (hlower.trans_le (hkept j hj).2) hnext.1 rfl
      exact hnot k ((Nat.le_succ_of_le hj).trans hk) hq

/-- An execution that ends in a state in which a label is not possible is fair to it. -/
theorem fairTo_of_final {a : α} {t : σ} {n : Nat} (hfinal : ∀ i, n ≤ i → x.state i = t)
    (hnot : ∀ u, ¬R t a u) : x.FairTo a := by
  intro i henabled
  obtain ⟨u, hu⟩ := henabled (max i n) (le_max_left i n)
  rw [hfinal _ (le_max_right i n)] at hu
  exact absurd hu (hnot u)

end Execution

/-- A sequence of states that continues with one state after a time. -/
def thenAlways (n : Nat) (state : Nat → σ) (t : σ) (i : Nat) : σ :=
  if i ≤ n then state i else t

theorem thenAlways_of_le {n i : Nat} (h : i ≤ n) (state : Nat → σ) (t : σ) :
    thenAlways n state t i = state i := if_pos h

theorem thenAlways_of_lt {n i : Nat} (h : n < i) (state : Nat → σ) (t : σ) :
    thenAlways n state t i = t := if_neg (Nat.not_le_of_lt h)

/-- The states that a finite run passes through. -/
theorem Path.states {s t : σ} {as : List α} (h : Path R s as t) :
    ∃ state : Nat → σ, state 0 = s ∧ state as.length = t ∧
      ∀ i a, as[i]? = some a → R (state i) a (state (i + 1)) := by
  induction h with
  | nil => exact ⟨fun _ => s, rfl, rfl, fun i a ha => by simp at ha⟩
  | @snoc t u as b _ hr ih =>
      obtain ⟨state, hstart, hend, hstep⟩ := ih
      refine ⟨thenAlways as.length state u, ?_, ?_, fun i a ha => ?_⟩
      · rw [thenAlways_of_le (Nat.zero_le _), hstart]
      · rw [thenAlways_of_lt (by simp)]
      · rcases lt_trichotomy i as.length with hi | hi | hi
        · rw [List.getElem?_append_left hi] at ha
          rw [thenAlways_of_le hi.le, thenAlways_of_le (Nat.succ_le_of_lt hi)]
          exact hstep i a ha
        · rw [hi, List.getElem?_concat_length, Option.some.injEq] at ha
          rw [hi, thenAlways_of_le le_rfl, thenAlways_of_lt (Nat.lt_succ_self _), hend, ← ha]
          exact hr
        · rw [List.getElem?_eq_none (by simpa using Nat.succ_le_of_lt hi)] at ha
          cases ha

/-- A finite run that ends where nothing need happen is the start of an execution. -/
theorem Path.exists_execution {t : σ} {as : List α} (h : Path R s₀ as t) {e : α} (he : R t e t) :
    ∃ x : Execution R s₀, (∀ i a, as[i]? = some a → x.event i = a) ∧
      ∀ i, as.length ≤ i → x.state i = t ∧ x.event i = e := by
  obtain ⟨state, hstart, hend, hstep⟩ := h.states
  have hfinal {i : Nat} (hi : as.length ≤ i) : thenAlways as.length state t i = t := by
    rcases hi.eq_or_lt with rfl | hlt
    · rw [thenAlways_of_le le_rfl, hend]
    · exact thenAlways_of_lt hlt state t
  refine ⟨⟨thenAlways as.length state t, fun i => as[i]?.getD e, ?_, fun i => ?_⟩,
    fun i a ha => ?_, fun i hi => ⟨hfinal hi, ?_⟩⟩
  · rw [thenAlways_of_le (Nat.zero_le _), hstart]
  · by_cases hi : i < as.length
    · rw [thenAlways_of_le hi.le, thenAlways_of_le (Nat.succ_le_of_lt hi),
        List.getElem?_eq_getElem hi]
      exact hstep i _ (List.getElem?_eq_getElem hi)
    · rw [not_lt] at hi
      rw [hfinal hi, hfinal (Nat.le_succ_of_le hi), List.getElem?_eq_none hi]
      exact he
  · simp only [ha, Option.getD_some]
  · simp only [List.getElem?_eq_none hi, Option.getD_none]

end VhalCore
