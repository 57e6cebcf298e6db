import VhalCore.Models.ValuePool.Native.ObjectPool

/-!
# The running total of a pool

The running total of the sizes is maintained by an addition and a subtraction of 64-bit words.
It is the sum of the sizes of the pooled objects in every state that a pool reaches, if and
only if it is so at the start: the constructor leaves it to the memory of the pool, which has
to hold zero.
-/

namespace VhalCore.ValuePool

universe u

variable {T : Type u}

namespace ObjectPool

/-- The sum of the sizes of the pooled objects. -/
def pooledSize (p : ObjectPool T) : Nat := (p.mObjects.map fun o => (p.mGetSizeFunc o).toNat).sum

/-- The running total is exact and within the maximum; so the subtraction of `obtain` does not
underflow, and an object is deleted only if it would exceed the maximum. -/
structure Accounted (p : ObjectPool T) : Prop where
  total : p.mPoolObjectsSize.toNat = p.pooledSize
  bounded : p.mPoolObjectsSize ≤ p.mMaxPoolObjectsSize
  noUnderflow : ∀ o rest, p.mObjects = o :: rest → p.mGetSizeFunc o ≤ p.mPoolObjectsSize
  deleted : ∀ o, (p.recycle o).mObjects = p.mObjects →
    p.mMaxPoolObjectsSize.toNat < p.pooledSize + (p.mGetSizeFunc o).toNat

/-- The part of the accounting that the calls maintain. -/
structure Balanced (p : ObjectPool T) : Prop where
  total : p.mPoolObjectsSize.toNat = p.pooledSize
  bounded : p.mPoolObjectsSize.toNat ≤ p.mMaxPoolObjectsSize.toNat

theorem pooledSize_cons {p : ObjectPool T} {o : T} {rest : List T} (h : p.mObjects = o :: rest) :
    p.pooledSize = (p.mGetSizeFunc o).toNat +
      (rest.map fun x => (p.mGetSizeFunc x).toNat).sum := by
  rw [pooledSize, h, List.map_cons, List.sum_cons]

/-- An object counts towards the total while it is pooled. -/
theorem Balanced.size_le {p : ObjectPool T} (h : p.Balanced) {o : T} {rest : List T}
    (hobjects : p.mObjects = o :: rest) : p.mGetSizeFunc o ≤ p.mPoolObjectsSize := by
  have htotal := h.total
  rw [pooledSize_cons hobjects] at htotal
  rw [UInt64.le_iff_toNat_le]
  omega

/-- Obtaining an object keeps the pool balanced. -/
theorem Balanced.obtain {p : ObjectPool T} (h : p.Balanced) (createObject : T) :
    (p.obtain createObject).2.Balanced := by
  cases hobjects : p.mObjects with
  | nil =>
      have hp : (p.obtain createObject).2 = p := by
        unfold ObjectPool.obtain
        rw [hobjects]
      rwa [hp]
  | cons o rest =>
      have hp : (p.obtain createObject).2 = { p with
          mObjects := rest
          mPoolObjectsSize := p.mPoolObjectsSize - p.mGetSizeFunc o } := by
        unfold ObjectPool.obtain
        rw [hobjects]
      have hsub := UInt64.toNat_sub_of_le _ _ (h.size_le hobjects)
      have htotal := h.total
      have hbounded := h.bounded
      rw [pooledSize_cons hobjects] at htotal
      rw [hp]
      constructor
      · simp only [pooledSize, hsub]
        omega
      · simp only [hsub]
        omega

/-- Recycling an object keeps the pool balanced. -/
theorem Balanced.recycle {p : ObjectPool T} (h : p.Balanced) (o : T) : (p.recycle o).Balanced := by
  rcases recycle_cases o p with ⟨_, hp⟩ | ⟨hsize, hroom, hp⟩
  · rwa [hp]
  · have hmax := p.mMaxPoolObjectsSize.toNat_lt
    rw [UInt64.le_iff_toNat_le] at hsize hroom
    rw [UInt64.toNat_sub_of_le _ _ (UInt64.le_iff_toNat_le.mpr hsize)] at hroom
    have hadd : (p.mPoolObjectsSize + p.mGetSizeFunc o).toNat =
        p.mPoolObjectsSize.toNat + (p.mGetSizeFunc o).toNat := by
      rw [UInt64.toNat_add]
      omega
    have htotal := h.total
    rw [pooledSize] at htotal
    rw [hp]
    constructor
    · simp only [pooledSize, hadd, List.map_append, List.map_cons, List.map_nil,
        List.sum_append, List.sum_cons, List.sum_nil]
      omega
    · simp only [hadd]
      omega

/-- Every call maintains the total, whatever the size with which an object comes back. -/
theorem Balanced.apply {p : ObjectPool T} (h : p.Balanced) (call : Call T) :
    (call.apply p).Balanced := by
  cases call with
  | obtain createObject => exact h.obtain createObject
  | recycle o => exact h.recycle o

theorem Balanced.run {p : ObjectPool T} (h : p.Balanced) (calls : List (Call T)) :
    (ObjectPool.run calls p).Balanced := by
  induction calls generalizing p with
  | nil => exact h
  | cons call calls ih => exact ih (h.apply call)

/-- An exact total makes the decisions of the pool right. -/
theorem Balanced.accounted {p : ObjectPool T} (h : p.Balanced) : p.Accounted where
  total := h.total
  bounded := UInt64.le_iff_toNat_le.mpr h.bounded
  noUnderflow _ _ hobjects := h.size_le hobjects
  deleted o hsame := by
    have htotal := h.total
    rcases recycle_cases o p with ⟨hfull, _⟩ | ⟨_, _, hp⟩
    · rcases hfull with hsize | hroom
      · rw [UInt64.lt_iff_toNat_lt] at hsize
        omega
      · by_cases hsize : p.mGetSizeFunc o ≤ p.mMaxPoolObjectsSize
        · rw [UInt64.lt_iff_toNat_lt, UInt64.toNat_sub_of_le _ _ hsize] at hroom
          rw [UInt64.le_iff_toNat_le] at hsize
          omega
        · rw [UInt64.not_le, UInt64.lt_iff_toNat_lt] at hsize
          omega
    · rw [hp] at hsame
      exact absurd hsame (by simp)

/-- The accounting holds in every state that a pool reaches from its construction exactly if
the memory of the pool held zero where the total is. -/
theorem accounted_iff (maxPoolObjectsSize : UInt64) (getSizeFunc : T → UInt64) (memory : UInt64) :
    (∀ calls, (run calls (construct maxPoolObjectsSize getSizeFunc memory)).Accounted) ↔
      memory = 0 := by
  constructor
  · intro h
    have htotal : memory.toNat = 0 := (h []).total
    exact UInt64.toNat_inj.mp htotal
  · rintro rfl calls
    refine (Balanced.run ⟨rfl, ?_⟩ calls).accounted
    simp only [construct, UInt64.toNat_zero]
    omega

end ObjectPool

section Example

open ObjectPool

/-- A pool that finds other contents in its memory has a total with nothing pooled, and deletes
the first object that is given back. -/
theorem fullFromTheStart_not_accounted :
    ¬ ∀ (maxPoolObjectsSize memory : UInt64) (getSizeFunc : String → UInt64) (calls : List _),
      (run calls (construct maxPoolObjectsSize getSizeFunc memory)).Accounted := by
  intro h
  have hdeleted := (h 10240 10240 (fun o => UInt64.ofNat o.utf8ByteSize) []).total
  simp only [run, construct, pooledSize, List.foldl_nil, List.map_nil, List.sum_nil] at hdeleted
  exact absurd hdeleted (by decide)

end Example

end VhalCore.ValuePool
