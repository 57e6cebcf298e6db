import Mathlib.Data.UInt

/-!
# Pools of recyclable objects

A pool keeps the objects that wait for their next use in a queue, together with the running
total of their sizes. An object that is given back is kept only while the total stays within
the maximum of the pool; all sizes are 64-bit words.
-/

namespace VhalCore.ValuePool

universe u

/-- A pool of objects; the size of an object is found by a function given to the pool. -/
structure ObjectPool (T : Type u) where
  mMaxPoolObjectsSize : UInt64
  mGetSizeFunc : T → UInt64
  mObjects : List T
  mPoolObjectsSize : UInt64

namespace ObjectPool

variable {T : Type u}

/-- The constructor. The running total is the one member without an initialiser, so it starts
with what the memory of the pool holds. -/
def construct (maxPoolObjectsSize : UInt64) (getSizeFunc : T → UInt64) (memory : UInt64) :
    ObjectPool T where
  mMaxPoolObjectsSize := maxPoolObjectsSize
  mGetSizeFunc := getSizeFunc
  mObjects := []
  mPoolObjectsSize := memory

/-- The object at the front of the queue, or else a new one as the subclass creates it. -/
def obtain (createObject : T) (p : ObjectPool T) : T × ObjectPool T :=
  match p.mObjects with
  | [] => (createObject, p)
  | o :: rest =>
      (o, { p with
        mObjects := rest
        mPoolObjectsSize := p.mPoolObjectsSize - p.mGetSizeFunc o })

/-- The end of a use: the object is deleted, or kept at the back of the queue. -/
def recycle (o : T) (p : ObjectPool T) : ObjectPool T :=
  let objectSize := p.mGetSizeFunc o
  if objectSize > p.mMaxPoolObjectsSize ∨
      p.mPoolObjectsSize > p.mMaxPoolObjectsSize - objectSize then p
  else { p with
    mObjects := p.mObjects ++ [o]
    mPoolObjectsSize := p.mPoolObjectsSize + objectSize }

/-- The two outcomes of `recycle`. -/
theorem recycle_cases (o : T) (p : ObjectPool T) :
    ((p.mMaxPoolObjectsSize < p.mGetSizeFunc o ∨
        p.mMaxPoolObjectsSize - p.mGetSizeFunc o < p.mPoolObjectsSize) ∧ p.recycle o = p) ∨
      (p.mGetSizeFunc o ≤ p.mMaxPoolObjectsSize ∧
        p.mPoolObjectsSize ≤ p.mMaxPoolObjectsSize - p.mGetSizeFunc o ∧
        p.recycle o = { p with
          mObjects := p.mObjects ++ [o]
          mPoolObjectsSize := p.mPoolObjectsSize + p.mGetSizeFunc o }) := by
  by_cases hfull : p.mMaxPoolObjectsSize < p.mGetSizeFunc o ∨
      p.mMaxPoolObjectsSize - p.mGetSizeFunc o < p.mPoolObjectsSize
  · exact Or.inl ⟨hfull, if_pos hfull⟩
  · obtain ⟨hsize, htotal⟩ := not_or.mp hfull
    exact Or.inr ⟨UInt64.not_lt.mp hsize, UInt64.not_lt.mp htotal, if_neg hfull⟩

@[simp] theorem recycle_mMaxPoolObjectsSize (o : T) (p : ObjectPool T) :
    (p.recycle o).mMaxPoolObjectsSize = p.mMaxPoolObjectsSize := by
  rcases recycle_cases o p with ⟨_, h⟩ | ⟨_, _, h⟩ <;> rw [h]

@[simp] theorem recycle_mGetSizeFunc (o : T) (p : ObjectPool T) :
    (p.recycle o).mGetSizeFunc = p.mGetSizeFunc := by
  rcases recycle_cases o p with ⟨_, h⟩ | ⟨_, _, h⟩ <;> rw [h]

@[simp] theorem obtain_mMaxPoolObjectsSize (createObject : T) (p : ObjectPool T) :
    (p.obtain createObject).2.mMaxPoolObjectsSize = p.mMaxPoolObjectsSize := by
  unfold obtain
  split <;> rfl

@[simp] theorem obtain_mGetSizeFunc (createObject : T) (p : ObjectPool T) :
    (p.obtain createObject).2.mGetSizeFunc = p.mGetSizeFunc := by
  unfold obtain
  split <;> rfl

/-- An obtained object was waiting or is new. -/
theorem obtain_mem (createObject : T) (p : ObjectPool T) :
    (p.obtain createObject).1 ∈ createObject :: p.mObjects := by
  unfold obtain
  split
  · exact List.mem_cons_self ..
  · rename_i o rest h
    rw [h]
    exact List.mem_cons_of_mem _ (List.mem_cons_self ..)

/-- Obtaining an object adds none to the pool. -/
theorem mem_of_mem_obtain {createObject o : T} {p : ObjectPool T}
    (h : o ∈ (p.obtain createObject).2.mObjects) : o ∈ p.mObjects := by
  unfold obtain at h
  split at h
  · exact h
  · rename_i hobjects
    rw [hobjects]
    exact List.mem_cons_of_mem _ h

/-- Only an object that fits the pool at all is kept. -/
theorem mem_recycle {o x : T} {p : ObjectPool T} (h : x ∈ (p.recycle o).mObjects) :
    x ∈ p.mObjects ∨ (x = o ∧ p.mGetSizeFunc o ≤ p.mMaxPoolObjectsSize) := by
  rcases recycle_cases o p with ⟨_, hdeleted⟩ | ⟨hsize, _, hkept⟩
  · rw [hdeleted] at h
    exact Or.inl h
  · rw [hkept] at h
    rcases List.mem_append.mp h with hold | hnew
    · exact Or.inl hold
    · exact Or.inr ⟨List.mem_singleton.mp hnew, hsize⟩

/-- The two calls of a pool. An object may come back with another size than it had. -/
inductive Call (T : Type u) where
  | obtain (createObject : T)
  | recycle (o : T)

/-- One call changes the pool. -/
def Call.apply : Call T → ObjectPool T → ObjectPool T
  | .obtain createObject, p => (p.obtain createObject).2
  | .recycle o, p => p.recycle o

/-- The pool after some calls. -/
def run (calls : List (Call T)) (p : ObjectPool T) : ObjectPool T :=
  calls.foldl (fun p call => call.apply p) p

end ObjectPool

end VhalCore.ValuePool
