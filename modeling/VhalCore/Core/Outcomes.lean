import Mathlib.Data.List.Forall2

/-!
# Computations that may fail

A sequence of computations succeeds if and only if each of them does, and its result is then
made of theirs. Where the turns of a loop say something about a part of the state, its end has what
was said last; where they have keys and each is about the part of its own key, its end has in each
part what the turn of the key made of it.
-/

namespace VhalCore

universe u v w

section Outcome

variable {ε : Type u} {α : Type v} {β : Type v}

/-- A sequence succeeds exactly if both of its parts do. -/
theorem bind_eq_ok_iff {m : Except ε α} {f : α → Except ε β} {b : β} :
    (m >>= f) = .ok b ↔ ∃ a, m = .ok a ∧ f a = .ok b := by
  rcases m with e | a
  · refine ⟨fun h => ?_, fun ⟨_, h, _⟩ => ?_⟩
    · cases h
    · cases h
  · refine ⟨fun h => ⟨a, rfl, h⟩, fun ⟨_, h, hb⟩ => ?_⟩
    cases h
    exact hb

/-- A mapped outcome succeeds exactly if the outcome does. -/
theorem map_eq_ok_iff {f : α → β} {x : Except ε α} {b : β} :
    x.map f = .ok b ↔ ∃ a, x = .ok a ∧ b = f a := by
  cases x with
  | error e => exact iff_of_false (by simp [Except.map]) (by simp)
  | ok a =>
      simp only [Except.map, Except.ok.injEq, exists_eq_left']
      exact eq_comm

theorem mapError_eq_ok_iff {ε' : Type w} {f : ε → ε'} {x : Except ε α} {a : α} :
    x.mapError f = .ok a ↔ x = .ok a := by
  cases x with
  | error e => exact iff_of_false (by simp [Except.mapError]) (by simp)
  | ok b => simp [Except.mapError]

theorem toOption_eq_some_iff {x : Except ε α} {a : α} : x.toOption = some a ↔ x = .ok a := by
  cases x with
  | error e => exact iff_of_false (fun h => by cases h) fun h => by cases h
  | ok b => exact ⟨fun h => congrArg _ (Option.some.inj h), fun h => congrArg _ (Except.ok.inj h)⟩

/-- Computations with the same results differ in their errors only. -/
theorem toOption_congr {x y : Except ε α} (h : ∀ a, x = .ok a ↔ y = .ok a) :
    x.toOption = y.toOption := by
  cases x with
  | error e =>
      cases y with
      | error e' => rfl
      | ok b => cases (h b).mpr rfl
  | ok a => rw [(h a).mp rfl]

/-- A list is mapped if and only if each of its items is. -/
theorem mapM_eq_ok_iff {γ : Type w} {f : γ → Except ε α} {xs : List γ} {ys : List α} :
    xs.mapM f = .ok ys ↔ List.Forall₂ (fun x y => f x = .ok y) xs ys := by
  induction xs generalizing ys with
  | nil =>
      rw [List.mapM_nil, List.forall₂_nil_left_iff]
      exact ⟨fun h => by cases h; rfl, fun h => by rw [h]; rfl⟩
  | cons x xs ih =>
      rw [List.mapM_cons, bind_eq_ok_iff, List.forall₂_cons_left_iff]
      constructor
      · rintro ⟨y, hy, h⟩
        obtain ⟨zs, hzs, h⟩ := bind_eq_ok_iff.mp h
        cases h
        exact ⟨y, zs, hy, ih.mp hzs, rfl⟩
      · rintro ⟨y, zs, hy, hzs, rfl⟩
        exact ⟨y, hy, bind_eq_ok_iff.mpr ⟨zs, ih.mpr hzs, rfl⟩⟩

/-- The same for computations that may have no result. -/
theorem mapM_eq_some_iff {γ : Type w} {f : γ → Option α} {xs : List γ} {ys : List α} :
    xs.mapM f = some ys ↔ List.Forall₂ (fun x y => f x = some y) xs ys := by
  induction xs generalizing ys with
  | nil =>
      rw [List.mapM_nil, List.forall₂_nil_left_iff]
      exact ⟨fun h => (Option.some.inj h).symm, fun h => h ▸ rfl⟩
  | cons x xs ih =>
      rw [List.mapM_cons, List.forall₂_cons_left_iff]
      constructor
      · intro h
        obtain ⟨y, hy, hrest⟩ := Option.bind_eq_some_iff.mp h
        obtain ⟨zs, hzs, heq⟩ := Option.bind_eq_some_iff.mp hrest
        exact ⟨y, zs, hy, ih.mp hzs, (Option.some.inj heq).symm⟩
      · rintro ⟨y, zs, hy, hzs, rfl⟩
        rw [hy, ih.mpr hzs]
        rfl

/-- A map over a list succeeds exactly if it does on each element. -/
theorem exists_mapM_eq_ok_iff {γ : Type w} {f : γ → Except ε α} {xs : List γ} :
    (∃ ys, xs.mapM f = .ok ys) ↔ ∀ x ∈ xs, ∃ y, f x = .ok y := by
  induction xs with
  | nil => exact ⟨fun _ x hx => absurd hx (List.not_mem_nil), fun _ => ⟨[], rfl⟩⟩
  | cons x xs ih =>
      rw [List.forall_mem_cons, ← ih]
      simp only [mapM_eq_ok_iff, List.forall₂_cons_left_iff]
      constructor
      · rintro ⟨_, y, ys, hy, hys, rfl⟩
        exact ⟨⟨y, hy⟩, ys, hys⟩
      · rintro ⟨⟨y, hy⟩, ys, hys⟩
        exact ⟨y :: ys, y, ys, hy, hys, rfl⟩

end Outcome

section Loop

variable {ε σ α τ κ ν χ : Type*}

/-- A loop whose turns say something, or leave what was said before, ends with what was said
last. -/
theorem foldlM_lastWord {step : σ → α → Except ε σ} {O : σ → Option τ} {word : α → Option τ}
    (hstep : ∀ s a t, step s a = .ok t → O t = (word a).or (O s)) {xs : List α} {s t : σ}
    (h : xs.foldlM step s = .ok t) : O t = ((xs.filterMap word).getLast?).or (O s) := by
  induction xs generalizing s with
  | nil =>
      cases h
      rfl
  | cons a xs ih =>
      rw [List.foldlM_cons] at h
      obtain ⟨u, hu, h⟩ := bind_eq_ok_iff.mp h
      rw [ih h, hstep s a u hu]
      cases ha : word a with
      | none => rw [List.filterMap_cons_none ha, Option.none_or]
      | some said =>
          rw [List.filterMap_cons_some ha, List.getLast?_cons]
          cases (xs.filterMap word).getLast? <;> rfl

/-- Where it does not depend on the state whether a turn succeeds, the loop does if and only if
each of its turns does. -/
theorem exists_foldlM_eq_ok_iff {step : σ → α → Except ε σ} {P : α → Prop} {xs : List α}
    (hstep : ∀ x ∈ xs, ∀ s, (∃ t, step s x = .ok t) ↔ P x) (s : σ) :
    (∃ t, xs.foldlM step s = .ok t) ↔ ∀ x ∈ xs, P x := by
  induction xs generalizing s with
  | nil => exact iff_of_true ⟨s, rfl⟩ fun _ hx => absurd hx List.not_mem_nil
  | cons x xs ih =>
      have ih := ih fun y hy => hstep y (List.mem_cons_of_mem _ hy)
      rw [List.forall_mem_cons, ← hstep x (List.mem_cons_self ..) s]
      simp only [List.foldlM_cons, bind_eq_ok_iff]
      constructor
      · rintro ⟨t, u, hu, ht⟩
        exact ⟨⟨u, hu⟩, (ih u).mp ⟨t, ht⟩⟩
      · rintro ⟨⟨u, hu⟩, hall⟩
        obtain ⟨t, ht⟩ := (ih u).mpr hall
        exact ⟨t, u, hu, ht⟩

/-- A loop over items with different keys, whose turns keep an invariant and leave the views of
other keys alone: the view of a key is what the turn of the key makes of the first one. -/
theorem foldlM_keyed {step : σ → κ × ν → Except ε σ} {O : κ → σ → χ} {P : σ → Prop}
    {entries : List (κ × ν)} (hkept : ∀ e ∈ entries, ∀ s t, P s → step s e = .ok t → P t)
    (hframe : ∀ e ∈ entries, ∀ s t k, P s → step s e = .ok t → k ≠ e.1 → O k t = O k s)
    (hnodup : (entries.map Prod.fst).Nodup) {s t : σ} (hs : P s)
    (h : entries.foldlM step s = .ok t) :
    P t ∧ (∀ k, k ∉ entries.map Prod.fst → O k t = O k s) ∧
      ∀ e ∈ entries, ∃ u w, P u ∧ O e.1 u = O e.1 s ∧ step u e = .ok w ∧
        O e.1 t = O e.1 w := by
  induction entries generalizing s with
  | nil =>
      cases h
      exact ⟨hs, fun _ _ => rfl, fun _ he => absurd he List.not_mem_nil⟩
  | cons e entries ih =>
      rw [List.foldlM_cons] at h
      obtain ⟨u, hu, h⟩ := bind_eq_ok_iff.mp h
      have hself := List.mem_cons_self (a := e) (l := entries)
      have hlater {e' : κ × ν} (he' : e' ∈ entries) : e' ∈ e :: entries :=
        List.mem_cons_of_mem _ he'
      rw [List.map_cons, List.nodup_cons] at hnodup
      obtain ⟨ht, hothers, howns⟩ := ih (fun e' he' => hkept e' (hlater he'))
        (fun e' he' => hframe e' (hlater he')) hnodup.2 (hkept e hself s u hs hu) h
      refine ⟨ht, fun k hk => ?_, fun e' he' => ?_⟩
      · rw [List.map_cons, List.mem_cons, not_or] at hk
        exact (hothers k hk.2).trans (hframe e hself s u k hs hu hk.1)
      · rcases List.mem_cons.mp he' with rfl | he'
        · exact ⟨s, u, hs, rfl, hu, hothers _ hnodup.1⟩
        · obtain ⟨v, w, hv, hview, hstep, hend⟩ := howns e' he'
          refine ⟨v, w, hv, hview.trans (hframe e hself s u _ hs hu fun heq => ?_), hstep, hend⟩
          exact hnodup.1 (heq ▸ List.mem_map_of_mem he')

end Loop

end VhalCore
