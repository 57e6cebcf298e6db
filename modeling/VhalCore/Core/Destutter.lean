import Mathlib.Data.List.Destutter

/-!
# Removing consecutive repetitions

`List.destutter` keeps an element if it is related to the last one that is kept. Read from
the right end, a further element is decided by the last one kept so far.
-/

namespace VhalCore

variable {α : Type*} (R : α → α → Prop) [DecidableRel R]

/-- An element appended to a list is kept if it is related to the last element kept. -/
theorem destutter'_concat (l : List α) (a x : α) :
    ∃ y, (l.destutter' R a).getLast? = some y ∧
      (l ++ [x]).destutter' R a =
        if R y x then l.destutter' R a ++ [x] else l.destutter' R a := by
  induction l generalizing a with
  | nil =>
      refine ⟨a, rfl, ?_⟩
      rw [List.nil_append, List.destutter'_singleton, List.destutter'_nil]
      rfl
  | cons b l ih =>
      by_cases hab : R a b
      · obtain ⟨y, hlast, hcons⟩ := ih b
        refine ⟨y, ?_, ?_⟩
        · rw [List.destutter'_cons_pos _ hab, List.getLast?_cons, hlast]
          rfl
        · rw [List.cons_append, List.destutter'_cons_pos _ hab, List.destutter'_cons_pos _ hab,
            hcons]
          split <;> rfl
      · obtain ⟨y, hlast, hcons⟩ := ih a
        refine ⟨y, ?_, ?_⟩
        · rw [List.destutter'_cons_neg _ hab, hlast]
        · rw [List.cons_append, List.destutter'_cons_neg _ hab, List.destutter'_cons_neg _ hab,
            hcons]

/-- A further element is kept if it is related to the last one that is. -/
theorem destutter_concat_of_rel {l : List α} {x : α}
    (h : ∀ y, (l.destutter R).getLast? = some y → R y x) :
    (l ++ [x]).destutter R = l.destutter R ++ [x] := by
  cases l with
  | nil => rfl
  | cons a l =>
      obtain ⟨y, hlast, hconcat⟩ := destutter'_concat R l a x
      rw [List.cons_append, List.destutter_cons', List.destutter_cons', hconcat,
        if_pos (h y hlast)]

/-- It is dropped if it is not related to the last one that is kept. -/
theorem destutter_concat_of_not_rel {l : List α} {x y : α}
    (hlast : (l.destutter R).getLast? = some y) (h : ¬R y x) :
    (l ++ [x]).destutter R = l.destutter R := by
  cases l with
  | nil => cases hlast
  | cons a l =>
      obtain ⟨z, hz, hconcat⟩ := destutter'_concat R l a x
      rw [List.destutter_cons', hz] at hlast
      cases hlast
      rw [List.cons_append, List.destutter_cons', List.destutter_cons', hconcat, if_neg h]

end VhalCore
