import Mathlib.Data.Nat.Bitwise
import Mathlib.Data.List.Basic

/-!
# Bits of bytes

A vector of bytes is read as a mask, with eight bits in a byte and the lowest bit of a byte
first. `withBit` adds one bit, and a vector of bytes is known by its length and its bits.
-/

namespace VhalCore

/-- A bit of a mask; there are none past its end. -/
def bitAt (bytes : List UInt8) (b : Nat) : Bool :=
  (bytes.getD (b / 8) 0).toNat.testBit (b % 8)

/-- The mask with one more bit. -/
def withBit (bytes : List UInt8) (b : Nat) : List UInt8 :=
  bytes.modify (b / 8) fun byte => byte ||| 1 <<< UInt8.ofNat (b % 8)

@[simp] theorem length_withBit (bytes : List UInt8) (b : Nat) :
    (withBit bytes b).length = bytes.length :=
  List.length_modify ..

theorem testBit_one_shiftLeft :
    ∀ i j : Fin 8, ((1 : UInt8) <<< UInt8.ofNat i).toNat.testBit j = decide (j = i) := by
  decide

/-- Setting a bit changes that bit and no other. -/
theorem bitAt_withBit {bytes : List UInt8} {b : Nat} (h : b / 8 < bytes.length) (c : Nat) :
    bitAt (withBit bytes b) c = (bitAt bytes c || decide (c = b)) := by
  rw [bitAt, bitAt, List.getD_eq_getElem?_getD, List.getD_eq_getElem?_getD, withBit,
    List.getElem?_modify]
  by_cases hbyte : b / 8 = c / 8
  · have hbit := testBit_one_shiftLeft ⟨b % 8, Nat.mod_lt _ (by decide)⟩
      ⟨c % 8, Nat.mod_lt _ (by decide)⟩
    have hsame : c % 8 = b % 8 ↔ c = b := by omega
    rw [← hbyte, List.getElem?_eq_getElem h]
    simp only [if_true, Option.map_eq_map, Option.map_some, Option.getD_some, UInt8.toNat_or,
      Nat.testBit_or, hbit, Fin.mk.injEq, hsame]
  · have hne : c ≠ b := fun heq => hbyte (by rw [heq])
    simp only [hbyte, if_false, Option.map_eq_map, Option.map_id', hne, decide_false,
      Bool.or_false]

@[simp] theorem bitAt_replicate (n b : Nat) : bitAt (List.replicate n 0) b = false := by
  rw [bitAt, List.getD_eq_getElem?_getD, List.getElem?_replicate]
  split
  · exact Nat.zero_testBit _
  · exact Nat.zero_testBit _

/-- A byte is known by its bits. -/
theorem uint8_eq_of_testBit {x y : UInt8} (h : ∀ i < 8, x.toNat.testBit i = y.toNat.testBit i) :
    x = y := by
  refine UInt8.toNat_inj.mp (Nat.eq_of_testBit_eq fun i => ?_)
  by_cases hi : i < 8
  · exact h i hi
  · have hsmall (z : UInt8) : z.toNat < 2 ^ i :=
      lt_of_lt_of_le z.toNat_lt (Nat.pow_le_pow_right (by decide) (by omega))
    rw [Nat.testBit_lt_two_pow (hsmall x), Nat.testBit_lt_two_pow (hsmall y)]

/-- A mask is known by its length and its bits. -/
theorem bytes_ext {x y : List UInt8} (hlength : x.length = y.length)
    (hbits : ∀ b, bitAt x b = bitAt y b) : x = y := by
  refine List.ext_getElem hlength fun n hx hy => uint8_eq_of_testBit fun i hi => ?_
  have hbit := hbits (8 * n + i)
  have hdiv : (8 * n + i) / 8 = n := by omega
  have hmod : (8 * n + i) % 8 = i := by omega
  rwa [bitAt, bitAt, hdiv, hmod, List.getD_eq_getElem _ _ hx, List.getD_eq_getElem _ _ hy] at hbit

end VhalCore
