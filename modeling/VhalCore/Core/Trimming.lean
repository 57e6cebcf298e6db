import Mathlib.Data.List.DropRight

/-!
# Trimming a list at its ends

Where dropping and taking stop when a list is put together from parts.
-/

namespace VhalCore

variable {α : Type*} {p : α → Bool} {a b : List α}

/-- Dropping stops at once. -/
theorem dropWhile_of_head (h : ∀ x ∈ a.head?, p x = false) : a.dropWhile p = a := by
  cases a with
  | nil => rfl
  | cons x a => simp [h x rfl]

theorem takeWhile_of_head (h : ∀ x ∈ a.head?, p x = false) : a.takeWhile p = [] := by
  cases a with
  | nil => rfl
  | cons x a => simp [h x rfl]

theorem takeWhile_append_of_head (ha : ∀ x ∈ a, p x = true)
    (hb : ∀ x ∈ b.head?, p x = false) : (a ++ b).takeWhile p = a := by
  rw [List.takeWhile_append_of_pos ha, takeWhile_of_head hb, List.append_nil]

theorem dropWhile_append_of_head (ha : ∀ x ∈ a, p x = true)
    (hb : ∀ x ∈ b.head?, p x = false) : (a ++ b).dropWhile p = b := by
  rw [List.dropWhile_append_of_pos ha, dropWhile_of_head hb]

/-- Nothing is taken of a part that begins with another element. -/
theorem takeWhile_append_left (hb : ∀ x ∈ b.head?, p x = false) :
    (a ++ b).takeWhile p = a.takeWhile p := by
  induction a with
  | nil => simpa using takeWhile_of_head hb
  | cons x a ih =>
    cases hx : p x <;> simp [hx, ih]

theorem rdropWhile_append_of_all (h : ∀ x ∈ b, p x = true) :
    (a ++ b).rdropWhile p = a.rdropWhile p := by
  unfold List.rdropWhile
  rw [List.reverse_append, List.dropWhile_append_of_pos (by simpa using h)]

/-- What ends with another element is kept. -/
theorem rdropWhile_of_last (h : ∀ x ∈ a.getLast?, p x = false) : a.rdropWhile p = a := by
  unfold List.rdropWhile
  rw [dropWhile_of_head (by simpa using h), List.reverse_reverse]

/-- Trimming the end stops at an element that stays. -/
theorem rdropWhile_append_of_last (h : ∀ x ∈ a.getLast?, p x = false) :
    (a ++ b).rdropWhile p = a ++ b.rdropWhile p := by
  induction b using List.reverseRecOn with
  | nil => simpa using rdropWhile_of_last h
  | append_singleton b x ih =>
    rw [← List.append_assoc, List.rdropWhile_concat, List.rdropWhile_concat, ih]
    cases p x <;> simp

end VhalCore
