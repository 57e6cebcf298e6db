import Mathlib.Data.Finmap
import Mathlib.Data.List.Sort

/-!
# Unordered containers

A hash map is a finite map and a hash set a finite set: neither fixes the order
in which its elements are visited. A loop over one of them therefore takes a
`Traversal`, which lists every element exactly once in an order of its own.
The subscript operator of a map, which inserts a default for an absent key, is
split into its two effects: `touch` inserts and `valueAt` reads.
-/

namespace VhalCore

universe u v

/-- A hash map from `K` to `V`, up to the order of its buckets. -/
abbrev UnorderedMap (K : Type u) (V : Type v) : Type (max u v) := Finmap fun _ : K => V

namespace UnorderedMap

variable {K : Type u} {V : Type v} [DecidableEq K]

/-- An insertion is seen at its key only. -/
theorem lookup_insert_eq (m : UnorderedMap K V) (k x : K) (v : V) :
    Finmap.lookup x (m.insert k v) = if x = k then some v else m.lookup x := by
  by_cases h : x = k
  · subst h
    simp only [Finmap.lookup_insert, ite_true]
  · simp only [Finmap.lookup_insert_of_ne _ h, h, ite_false]

/-- A removal is seen at its key only. -/
theorem lookup_erase_eq (m : UnorderedMap K V) (k x : K) :
    Finmap.lookup x (m.erase k) = if x = k then none else m.lookup x := by
  by_cases h : x = k
  · subst h
    simp only [Finmap.lookup_erase, ite_true]
  · simp only [Finmap.lookup_erase_ne h, h, ite_false]

/-- A map is empty exactly when no key is bound. -/
theorem eq_empty_iff (m : UnorderedMap K V) : m = ∅ ↔ ∀ k, m.lookup k = none := by
  constructor
  · rintro rfl k
    exact Finmap.lookup_empty k
  · intro h
    refine Finmap.ext_lookup fun k => ?_
    rw [h k, Finmap.lookup_empty]

/-- A nonempty map binds some key. -/
theorem ne_empty_iff (m : UnorderedMap K V) : m ≠ ∅ ↔ ∃ k v, m.lookup k = some v := by
  rw [Ne, eq_empty_iff, not_forall]
  exact exists_congr fun k => Option.ne_none_iff_exists'

theorem mem_keys_iff (m : UnorderedMap K V) (k : K) : k ∈ m.keys ↔ ∃ v, m.lookup k = some v :=
  Finmap.mem_keys.trans Finmap.mem_iff

/-- The number of bound keys. -/
def size (m : UnorderedMap K V) : Nat := m.keys.card

/-- A map has two bindings exactly when two distinct keys are bound. -/
theorem one_lt_size_iff (m : UnorderedMap K V) :
    1 < size m ↔ ∃ a b, a ≠ b ∧ (∃ v, m.lookup a = some v) ∧ ∃ v, m.lookup b = some v := by
  rw [size, Finset.one_lt_card]
  constructor
  · rintro ⟨a, ha, b, hb, hne⟩
    exact ⟨a, b, hne, (mem_keys_iff m a).mp ha, (mem_keys_iff m b).mp hb⟩
  · rintro ⟨a, b, hne, ha, hb⟩
    exact ⟨a, (mem_keys_iff m a).mpr ha, b, (mem_keys_iff m b).mpr hb, hne⟩

/-- A map has one binding and binds `k` exactly when `k` is its only bound key. -/
theorem size_eq_one_and_bound_iff (m : UnorderedMap K V) (k : K) :
    size m = 1 ∧ m.lookup k ≠ none ↔ ∀ x, m.lookup x ≠ none ↔ x = k := by
  have hkeys (x : K) : m.lookup x ≠ none ↔ x ∈ m.keys := by
    rw [mem_keys_iff, Option.ne_none_iff_exists']
  simp only [hkeys, size]
  constructor
  · rintro ⟨hsize, hk⟩ x
    obtain ⟨y, hy⟩ := Finset.card_eq_one.mp hsize
    rw [hy, Finset.mem_singleton] at hk ⊢
    rw [hk]
  · intro h
    refine ⟨Finset.card_eq_one.mpr ⟨k, Finset.ext fun x => ?_⟩, (h k).mpr rfl⟩
    rw [Finset.mem_singleton, h x]

/-- The insertion made by the subscript operator: an absent key is bound to a default. -/
def touch (m : UnorderedMap K V) (k : K) (d : V) : UnorderedMap K V :=
  if k ∈ m then m else m.insert k d

/-- The value read by the subscript operator. -/
def valueAt (m : UnorderedMap K V) (k : K) (d : V) : V := (m.lookup k).getD d

/-- An access that makes an entry is seen at its key only. -/
theorem lookup_touch_eq (m : UnorderedMap K V) (k x : K) (d : V) :
    Finmap.lookup x (m.touch k d) = if x = k then some (m.valueAt k d) else m.lookup x := by
  by_cases hk : k ∈ m
  · obtain ⟨v, hv⟩ := Finmap.mem_iff.mp hk
    by_cases h : x = k
    · subst h
      simp only [touch, hk, ite_true, valueAt, hv, Option.getD_some]
    · simp only [touch, hk, h, ite_true, ite_false]
  · have hn := Finmap.lookup_eq_none.mpr hk
    rw [touch, if_neg hk, lookup_insert_eq, valueAt, hn, Option.getD_none]

@[simp] theorem lookup_touch_self (m : UnorderedMap K V) (k : K) (d : V) :
    Finmap.lookup k (m.touch k d) = some (m.valueAt k d) := by
  rw [lookup_touch_eq, if_pos rfl]

/-- The subscript operator binds its key to the value it reads. -/
theorem touch_eq_insert (m : UnorderedMap K V) (k : K) (d : V) :
    m.touch k d = m.insert k (m.valueAt k d) := by
  refine Finmap.ext_lookup fun x => ?_
  rw [lookup_touch_eq, lookup_insert_eq]

@[simp] theorem valueAt_insert_self (m : UnorderedMap K V) (k : K) (v d : V) :
    valueAt (m.insert k v) k d = v := by
  rw [valueAt, Finmap.lookup_insert, Option.getD_some]

theorem valueAt_of_lookup {m : UnorderedMap K V} {k : K} {v : V} (h : m.lookup k = some v)
    (d : V) : m.valueAt k d = v := by
  rw [valueAt, h, Option.getD_some]

/-- Erasing a key undoes whatever the subscript operator did to it. -/
theorem erase_touch (m : UnorderedMap K V) (k : K) (d : V) :
    Finmap.erase k (m.touch k d) = m.erase k := by
  refine Finmap.ext_lookup fun x => ?_
  rw [lookup_erase_eq, lookup_erase_eq, lookup_touch_eq]
  by_cases h : x = k <;> simp only [h, ite_true, ite_false]

section Index

variable {I : Type*} {K : Type u} {V : Type v} [DecidableEq I] [DecidableEq K]
  {index : UnorderedMap K I} {data : UnorderedMap I V} {key : V → K}

/-- The index binds the key of every value to the place of the value, and binds nothing else. -/
def Indexes (index : UnorderedMap K I) (data : UnorderedMap I V) (key : V → K) : Prop :=
  ∀ k i, index.lookup k = some i ↔ ∃ v, data.lookup i = some v ∧ key v = k

/-- A value at a free place joins the index when its key is not bound. -/
theorem Indexes.insert (h : Indexes index data key) {i : I} (v : V)
    (hkey : index.lookup (key v) = none) (hplace : data.lookup i = none) :
    Indexes (Finmap.insert (key v) i index) (Finmap.insert i v data) key := by
  intro k j
  rw [lookup_insert_eq, lookup_insert_eq]
  by_cases hj : j = i
  · have hfree : index.lookup k ≠ some j := by
      rw [ne_eq, h, hj, hplace]
      simp
    by_cases hk : k = key v
    · simp [hj, hk]
    · simpa [hj, hk, Ne.symm hk] using hj ▸ hfree
  · rw [if_neg hj, ← h]
    by_cases hk : k = key v
    · subst hk
      simp [hkey, Ne.symm hj]
    · rw [if_neg hk]

/-- A place that is erased leaves the index with the key of its value. -/
theorem Indexes.erase (h : Indexes index data key) {i : I} {v : V}
    (hplace : data.lookup i = some v) :
    Indexes (Finmap.erase (key v) index) (Finmap.erase i data) key := by
  intro k j
  rw [lookup_erase_eq, lookup_erase_eq]
  have hbound : index.lookup (key v) = some i := (h _ i).mpr ⟨v, hplace, rfl⟩
  by_cases hk : k = key v
  · by_cases hj : j = i
    · simp [hk, hj]
    · rw [if_pos hk, if_neg hj, hk, ← h, hbound, Option.some.injEq]
      simp [Ne.symm hj]
  · rw [if_neg hk, h]
    by_cases hj : j = i
    · subst hj
      simp [hplace, Ne.symm hk]
    · rw [if_neg hj]

/-- A value that is replaced by one with its key leaves the index as it is. -/
theorem Indexes.replace (h : Indexes index data key) {i : I} {v w : V}
    (hplace : data.lookup i = some v) (hkey : key w = key v) :
    Indexes index (Finmap.insert i w data) key := by
  intro k j
  rw [lookup_insert_eq, h]
  by_cases hj : j = i
  · subst hj
    simp [hplace, hkey]
  · rw [if_neg hj]

end Index

/-- A loop over the bindings of a map is a loop over a list of them. -/
theorem foldl_eq_list {δ : Type*} (m : UnorderedMap K V) (f : δ → K → V → δ)
    (hf : ∀ d a b c e, f (f d a b) c e = f (f d c e) a b) (d : δ) :
    ∃ l : List (K × V), (∀ k v, (k, v) ∈ l ↔ m.lookup k = some v) ∧
      m.foldl f hf d = l.foldl (fun d e => f d e.1 e.2) d := by
  induction m using Finmap.induction_on with
  | H s =>
      refine ⟨s.entries.map fun e => (e.1, e.2), fun k v => ?_, ?_⟩
      · rw [Finmap.lookup_toFinmap, ← Option.mem_def, AList.mem_lookup_iff, List.mem_map]
        constructor
        · rintro ⟨⟨k', v'⟩, hmem, heq⟩
          cases heq
          exact hmem
        · intro hmem
          exact ⟨⟨k, v⟩, hmem, rfl⟩
      · rw [List.foldl_map]
        rfl

end UnorderedMap

/-- A visiting order of an unordered container: every element once, in any order. -/
structure Traversal (α : Type u) where
  /-- The elements of a set, in the order in which a loop visits them. -/
  visit : Finset α → List α
  nodup : ∀ s, (visit s).Nodup
  mem : ∀ s a, a ∈ visit s ↔ a ∈ s

/-- A single element is visited alone. -/
theorem Traversal.visit_singleton {α : Type u} (order : Traversal α) (a : α) :
    order.visit {a} = [a] := by
  have hmem (b : α) : b ∈ order.visit {a} ↔ b ∈ [a] := by
    rw [order.mem, Finset.mem_singleton, List.mem_singleton]
  exact List.perm_singleton.mp
    ((List.perm_ext_iff_of_nodup (order.nodup _) (List.nodup_singleton a)).mpr hmem)

/-- The bindings of a map, in the order in which a loop visits its keys. -/
def Traversal.entries {K : Type u} {V : Type v} [DecidableEq K] (order : Traversal K)
    (m : UnorderedMap K V) : List (K × V) :=
  (order.visit m.keys).filterMap fun k => (m.lookup k).map fun v => (k, v)

/-- The visited bindings are those of the map. -/
theorem Traversal.mem_entries {K : Type u} {V : Type v} [DecidableEq K] (order : Traversal K)
    (m : UnorderedMap K V) (k : K) (v : V) :
    (k, v) ∈ order.entries m ↔ m.lookup k = some v := by
  simp only [entries, List.mem_filterMap, Option.map_eq_some_iff, Prod.mk.injEq]
  constructor
  · rintro ⟨k', _, v', hv, rfl, rfl⟩
    exact hv
  · intro hv
    exact ⟨k, (order.mem _ _).mpr ((UnorderedMap.mem_keys_iff m k).mpr ⟨v, hv⟩), v, hv, rfl, rfl⟩

/-- Every binding is visited once. -/
theorem Traversal.nodup_entries {K : Type u} {V : Type v} [DecidableEq K] (order : Traversal K)
    (m : UnorderedMap K V) : (order.entries m).Nodup := by
  refine List.Nodup.filterMap (fun a b e ha hb => ?_) (order.nodup _)
  simp only [Option.mem_def, Option.map_eq_some_iff] at ha hb
  obtain ⟨_, _, rfl⟩ := ha
  obtain ⟨_, _, hb⟩ := hb
  exact (Prod.mk.inj hb).1.symm

/-- No key is visited twice. -/
theorem Traversal.nodup_map_fst_entries {K : Type u} {V : Type v} [DecidableEq K]
    (order : Traversal K) (m : UnorderedMap K V) : ((order.entries m).map Prod.fst).Nodup := by
  refine (order.nodup_entries m).map_on ?_
  rintro ⟨k, v⟩ hv ⟨_, w⟩ hw rfl
  have hlookup := (order.mem_entries m k v).mp hv
  rw [Option.some.inj (hlookup.symm.trans ((order.mem_entries m k w).mp hw))]

/-- A key is visited if and only if it is bound. -/
theorem Traversal.mem_map_fst_entries {K : Type u} {V : Type v} [DecidableEq K]
    (order : Traversal K) (m : UnorderedMap K V) (k : K) :
    k ∈ (order.entries m).map Prod.fst ↔ m.lookup k ≠ none := by
  rw [Option.ne_none_iff_exists', List.mem_map]
  constructor
  · rintro ⟨⟨_, v⟩, hv, rfl⟩
    exact ⟨v, (order.mem_entries m _ v).mp hv⟩
  · rintro ⟨v, hv⟩
    exact ⟨(k, v), (order.mem_entries m k v).mpr hv, rfl⟩

/-- Visiting in ascending order is one of the possible orders. -/
def Traversal.ascending (α : Type u) [LinearOrder α] : Traversal α where
  visit s := Quot.liftOn s.val (fun l => l.insertionSort (· ≤ ·)) fun a b h =>
    ((List.perm_insertionSort _ a).trans
      (h.trans (List.perm_insertionSort _ b).symm)).eq_of_pairwise'
        (List.pairwise_insertionSort _ a) (List.pairwise_insertionSort _ b)
  nodup s := by
    rcases s with ⟨⟨l⟩, h⟩
    exact (List.perm_insertionSort (· ≤ ·) l).nodup_iff.mpr h
  mem s a := by
    rcases s with ⟨⟨l⟩, h⟩
    exact (List.perm_insertionSort (· ≤ ·) l).mem_iff

end VhalCore
