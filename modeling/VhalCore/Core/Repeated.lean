import Mathlib.Data.List.Basic

/-!
# Repeated fields

A repeated field of a message is filled by one append per element, and is copied to a
vector that is first resized and then assigned index by index. Both leave the list of
the copied elements, whatever the vector held before the copy.
-/

namespace VhalCore

variable {α β : Type}

/-- The vector cut or extended with default elements to a length. -/
def resize [Inhabited β] (n : Nat) (v : List β) : List β :=
  v.take n ++ List.replicate (n - v.length) default

/-- Assign the cast elements to the positions of the vector from an index on. -/
def assignFrom (cast : α → β) : Nat → List α → List β → List β
  | _, [], v => v
  | idx, x :: xs, v => assignFrom cast (idx + 1) xs (v.set idx (cast x))

/-- Resize the vector to the number of elements and assign them one by one. -/
def castCopy [Inhabited β] (cast : α → β) (xs : List α) (v : List β) : List β :=
  assignFrom cast 0 xs (resize xs.length v)

/-- Add the converted elements to a repeated field, one by one. -/
def addAll (convert : α → β) (xs : List α) (field : List β) : List β :=
  xs.foldl (fun field x => field ++ [convert x]) field

theorem length_resize [Inhabited β] (n : Nat) (v : List β) : (resize n v).length = n := by
  simp only [resize, List.length_append, List.length_take, List.length_replicate]
  omega

/-- Assigning from an index on keeps what stands before the index and replaces the rest. -/
theorem assignFrom_eq (cast : α → β) (xs : List α) (done rest : List β)
    (h : rest.length = xs.length) :
    assignFrom cast done.length xs (done ++ rest) = done ++ xs.map cast := by
  induction xs generalizing done rest with
  | nil =>
      rw [List.length_eq_zero_iff.mp h]
      rfl
  | cons x xs ih =>
      obtain ⟨y, rest, rfl⟩ := List.exists_cons_of_length_eq_add_one h
      have hset : (done ++ y :: rest).set done.length (cast x) = (done ++ [cast x]) ++ rest := by
        simp
      have hlen : done.length + 1 = (done ++ [cast x]).length := by simp
      rw [assignFrom, hset, hlen, ih (done ++ [cast x]) rest (Nat.succ.inj h)]
      simp

/-- A copied field is the list of the cast elements. -/
theorem castCopy_eq_map [Inhabited β] (cast : α → β) (xs : List α) (v : List β) :
    castCopy cast xs v = xs.map cast :=
  assignFrom_eq cast xs [] (resize xs.length v) (length_resize xs.length v)

/-- Copying without a cast gives the field itself. -/
theorem castCopy_id [Inhabited α] (xs v : List α) : castCopy id xs v = xs := by
  rw [castCopy_eq_map, List.map_id]

/-- The added elements stand after those that the field held. -/
theorem addAll_eq_append (convert : α → β) (xs : List α) (field : List β) :
    addAll convert xs field = field ++ xs.map convert := by
  rw [addAll, List.foldl_append_eq_append, ← List.flatMap_def, ← List.map_eq_flatMap]

/-- A field filled from empty holds the converted elements. -/
theorem addAll_nil (convert : α → β) (xs : List α) : addAll convert xs [] = xs.map convert := by
  rw [addAll_eq_append, List.nil_append]

end VhalCore
