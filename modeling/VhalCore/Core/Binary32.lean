import Mathlib.Algebra.Order.Ring.Int
import Mathlib.Data.Int.Order.Basic
import Mathlib.Data.Nat.Log
import Mathlib.Tactic.Positivity
import Mathlib.Tactic.Ring

/-!
# Single-precision floating point

Every finite single-precision number is an integer multiple of `2⁻¹⁴⁹`, so a
number is stored as that multiple. Infinity takes the place of `2¹²⁸`, the first
power of two that overflows: with it the order of the multiples is the order of
the numbers. The two zeros compare equal and are identified.

Arithmetic is exact on the multiples and rounded once, to the nearest number with
a 24-bit significand and to the even one of two. A quotient in double precision is
rounded to a 53-bit significand. A conversion to an integer type has a result only
for numbers in the range of the type.
-/

namespace VhalCore

/-- The multiple that stands for infinity. -/
def infinityUnits : Nat := 2 ^ 128 * 2 ^ 149

/-- A magnitude is representable if it fits 24 significant bits and does not exceed
infinity. -/
def Representable (n : Nat) : Prop := n ≤ infinityUnits ∧ 2 ^ (n.log2 - 23) ∣ n

instance (n : Nat) : Decidable (Representable n) := inferInstanceAs (Decidable (_ ∧ _))

/-- A single-precision number, as a multiple of `2⁻¹⁴⁹`, or not-a-number. -/
inductive Binary32 where
  | nan
  | num (units : Int) (representable : Representable units.natAbs)
  deriving DecidableEq

namespace Binary32

/-- Ordered comparison; every comparison with not-a-number is false. -/
def lt : Binary32 → Binary32 → Bool
  | num a _, num b _ => decide (a < b)
  | _, _ => false

/-- Ordered comparison, with equality. -/
def le : Binary32 → Binary32 → Bool
  | num a _, num b _ => decide (a ≤ b)
  | _, _ => false

/-- Floating-point equality: not-a-number differs from everything, itself included. -/
def eq : Binary32 → Binary32 → Bool
  | num a _, num b _ => decide (a = b)
  | _, _ => false

protected theorem eq_iff {a b : Binary32} : eq a b = true ↔ a = b ∧ a ≠ nan := by
  cases a <;> cases b <;> simp [eq]

protected theorem le_antisymm {a b : Binary32} (hab : le a b = true) (hba : le b a = true) :
    a = b := by
  cases a <;> cases b <;> simp only [le, decide_eq_true_eq, Bool.false_eq_true] at hab hba
  simp only [num.injEq]
  omega

protected theorem le_trans {a b c : Binary32} (hab : le a b = true) (hbc : le b c = true) :
    le a c = true := by
  cases a <;> cases b <;> cases c <;>
    simp only [le, decide_eq_true_eq, Bool.false_eq_true] at hab hbc ⊢
  omega

theorem le_refl_of_ne_nan {a : Binary32} (h : a ≠ nan) : le a a = true := by
  cases a with
  | nan => exact absurd rfl h
  | num a _ => simp only [le, le_refl, decide_true]

protected theorem le_of_lt {a b : Binary32} (h : lt a b = true) : le a b = true := by
  cases a <;> cases b <;> simp only [lt, le, decide_eq_true_eq, Bool.false_eq_true] at h ⊢
  omega

/-- Between two numbers exactly one of the two strict and non-strict orders holds. -/
theorem le_of_lt_eq_false {a b : Binary32} (ha : a ≠ nan) (hb : b ≠ nan)
    (h : lt a b = false) : le b a = true := by
  cases a with
  | nan => exact absurd rfl ha
  | num a _ =>
      cases b with
      | nan => exact absurd rfl hb
      | num b _ =>
          simp only [lt, le, decide_eq_false_iff_not, decide_eq_true_eq] at h ⊢
          omega

/-- A loop that keeps the larger of the running value and the next one. -/
def keepMax (m x : Binary32) : Binary32 := if lt m x then x else m

/-- A loop that keeps the smaller of the running value and the next one. -/
def keepMin (m x : Binary32) : Binary32 := if lt x m then x else m

/-- The running maximum does not depend on the order of its inputs. -/
theorem keepMax_right_comm (m x y : Binary32) :
    keepMax (keepMax m x) y = keepMax (keepMax m y) x := by
  cases m <;> cases x <;> cases y <;> grind [keepMax, lt]

/-- The running minimum does not depend on the order of its inputs. -/
theorem keepMin_right_comm (m x y : Binary32) :
    keepMin (keepMin m x) y = keepMin (keepMin m y) x := by
  cases m <;> cases x <;> cases y <;> grind [keepMin, lt]

/-- A running maximum that is not NaN stays so. -/
theorem keepMax_ne_nan {m : Binary32} (hm : m ≠ nan) (x : Binary32) : keepMax m x ≠ nan := by
  unfold keepMax
  split
  · intro hx
    simp_all [lt]
  · exact hm

/-- A running minimum that is not NaN stays so. -/
theorem keepMin_ne_nan {m : Binary32} (hm : m ≠ nan) (x : Binary32) : keepMin m x ≠ nan := by
  unfold keepMin
  split
  · intro hx
    simp_all [lt]
  · exact hm

/-- A loop that keeps one of two numbers, never worse than either, ends with a number
that is not worse than any it met and is one of them. -/
private theorem foldl_keep_spec {r : Binary32 → Binary32 → Prop}
    {keep : Binary32 → Binary32 → Binary32} (hrefl : ∀ x, x ≠ nan → r x x)
    (htrans : ∀ x y z, r x y → r y z → r x z)
    (hkeep : ∀ m x, m ≠ nan → x ≠ nan → keep m x ≠ nan ∧ r m (keep m x) ∧ r x (keep m x) ∧
      (keep m x = m ∨ keep m x = x))
    {xs : List Binary32} (hx : ∀ x ∈ xs, x ≠ nan) {m : Binary32} (hm : m ≠ nan) :
    r m (xs.foldl keep m) ∧ (∀ x ∈ xs, r x (xs.foldl keep m)) ∧
      (xs.foldl keep m = m ∨ xs.foldl keep m ∈ xs) := by
  induction xs generalizing m with
  | nil => exact ⟨hrefl m hm, nofun, Or.inl rfl⟩
  | cons x xs ih =>
      obtain ⟨hn, hmk, hxk, hk⟩ := hkeep m x hm (hx x (List.mem_cons_self ..))
      obtain ⟨hstart, hall, hmem⟩ := ih (fun y hy => hx y (List.mem_cons_of_mem _ hy)) hn
      refine ⟨htrans _ _ _ hmk hstart, fun y hy => ?_, ?_⟩
      · rcases List.mem_cons.mp hy with rfl | hy
        · exact htrans _ _ _ hxk hstart
        · exact hall y hy
      · rw [List.foldl_cons, List.mem_cons]
        rcases hmem with hmem | hmem
        · rw [hmem]
          exact hk.imp_right Or.inl
        · exact Or.inr (Or.inr hmem)

/-- The running maximum is an upper bound, and one of the numbers or the first value. -/
theorem foldl_keepMax_spec {xs : List Binary32} (hx : ∀ x ∈ xs, x ≠ nan) {m : Binary32}
    (hm : m ≠ nan) :
    le m (xs.foldl keepMax m) = true ∧ (∀ x ∈ xs, le x (xs.foldl keepMax m) = true) ∧
      (xs.foldl keepMax m = m ∨ xs.foldl keepMax m ∈ xs) := by
  refine foldl_keep_spec (r := fun x y => le x y = true) (fun _ => le_refl_of_ne_nan)
    (fun _ _ _ => Binary32.le_trans) (fun m x hm hx => ⟨keepMax_ne_nan hm x, ?_⟩) hx hm
  by_cases hlt : lt m x = true
  · rw [keepMax, if_pos hlt]
    exact ⟨Binary32.le_of_lt hlt, le_refl_of_ne_nan hx, Or.inr rfl⟩
  · rw [keepMax, if_neg hlt]
    simp only [Bool.not_eq_true] at hlt
    exact ⟨le_refl_of_ne_nan hm, le_of_lt_eq_false hm hx hlt, Or.inl rfl⟩

/-- The running minimum is a lower bound, and one of the numbers or the first value. -/
theorem foldl_keepMin_spec {xs : List Binary32} (hx : ∀ x ∈ xs, x ≠ nan) {m : Binary32}
    (hm : m ≠ nan) :
    le (xs.foldl keepMin m) m = true ∧ (∀ x ∈ xs, le (xs.foldl keepMin m) x = true) ∧
      (xs.foldl keepMin m = m ∨ xs.foldl keepMin m ∈ xs) := by
  refine foldl_keep_spec (r := fun x y => le y x = true) (fun _ => le_refl_of_ne_nan)
    (fun _ _ _ h₁ h₂ => Binary32.le_trans h₂ h₁) (fun m x hm hx => ⟨keepMin_ne_nan hm x, ?_⟩) hx hm
  by_cases hlt : lt x m = true
  · rw [keepMin, if_pos hlt]
    exact ⟨Binary32.le_of_lt hlt, le_refl_of_ne_nan hx, Or.inr rfl⟩
  · rw [keepMin, if_neg hlt]
    simp only [Bool.not_eq_true] at hlt
    exact ⟨le_refl_of_ne_nan hm, le_of_lt_eq_false hx hm hlt, Or.inl rfl⟩

/-- The nearest integer to `n / d`, the even one of two. -/
def roundDiv (n d : Nat) : Nat :=
  if 2 * (n % d) < d then n / d
  else if d < 2 * (n % d) then n / d + 1
  else n / d + n / d % 2

/-- Rounding adds at most one to the quotient. -/
theorem roundDiv_le (n d : Nat) : roundDiv n d ≤ n / d + 1 := by
  unfold roundDiv
  split
  · omega
  · split
    · omega
    · have := Nat.mod_lt (n / d) (by decide : 0 < 2)
      omega

/-- Rounding is off by at most one half. -/
theorem roundDiv_bounds (n : Nat) {d : Nat} (hd : 0 < d) :
    2 * n ≤ (2 * roundDiv n d + 1) * d ∧ 2 * roundDiv n d * d ≤ 2 * n + d := by
  have hn := Nat.div_add_mod n d
  have hmul (a : Nat) : (2 * a + 1) * d = 2 * (d * a) + d ∧ 2 * a * d = 2 * (d * a) :=
    ⟨by ring, by ring⟩
  have hsucc : d * (n / d + 1) = d * (n / d) + d := by ring
  have hlt := Nat.mod_lt n hd
  rw [(hmul _).1, (hmul _).2]
  unfold roundDiv
  split
  · omega
  · split
    · rw [hsucc]
      omega
    · rcases Nat.mod_two_eq_zero_or_one (n / d) with heven | hodd
      · rw [heven, Nat.add_zero]
        omega
      · rw [hodd, hsucc]
        omega

/-- Rounding never falls below the quotient. -/
theorem div_le_roundDiv (n d : Nat) : n / d ≤ roundDiv n d := by
  unfold roundDiv
  split
  · exact le_rfl
  · split
    · exact Nat.le_succ _
    · exact Nat.le_add_right ..

/-- A larger divisor has no larger rounded quotient. -/
theorem roundDiv_antitone (n : Nat) {d d' : Nat} (hd : 0 < d) (h : d ≤ d') :
    roundDiv n d' ≤ roundDiv n d := by
  by_contra hlt
  have hupper := (roundDiv_bounds n hd).1
  have hlower := (roundDiv_bounds n (hd.trans_le h)).2
  have hstep : (2 * roundDiv n d + 1) * d' ≤ (2 * roundDiv n d + 1) * d := by
    have hnext : (2 * (roundDiv n d + 1)) * d' ≤ 2 * roundDiv n d' * d' :=
      Nat.mul_le_mul_right _ (by omega)
    have hexpand : (2 * (roundDiv n d + 1)) * d' = (2 * roundDiv n d + 1) * d' + d' := by ring
    omega
  have heq : d' = d := le_antisymm (Nat.le_of_mul_le_mul_left hstep (by omega)) h
  rw [heq] at hlt
  exact hlt le_rfl

/-- The nearest multiple of a power of two with 53 significant bits. -/
def roundBits (n d : Nat) : Nat :=
  roundDiv n (d * 2 ^ ((n / d).log2 - 52)) * 2 ^ ((n / d).log2 - 52)

/-- A larger denominator never rounds to a larger number. -/
theorem roundBits_antitone (n : Nat) {d d' : Nat} (hd : 0 < d) (h : d ≤ d') :
    roundBits n d' ≤ roundBits n d := by
  have hquot : n / d' ≤ n / d := Nat.div_le_div_left h hd
  have hlog : (n / d').log2 - 52 ≤ (n / d).log2 - 52 := by
    rcases Nat.eq_zero_or_pos (n / d') with hzero | hpos
    · rw [hzero]
      exact Nat.zero_le _
    · exact Nat.sub_le_sub_right ((Nat.le_log2 (by omega)).mpr
        ((Nat.log2_self_le (by omega)).trans hquot)) 52
  rw [roundBits, roundBits]
  generalize he : (n / d).log2 - 52 = e at hlog ⊢
  generalize he' : (n / d').log2 - 52 = e' at hlog ⊢
  rcases hlog.eq_or_lt with heq | hlt
  · rw [heq]
    exact Nat.mul_le_mul_right _
      (roundDiv_antitone n (by positivity) (Nat.mul_le_mul_right _ h))
  · have hbig : 2 ^ 52 ≤ n / (d * 2 ^ e) := by
      have hle : 2 ^ (52 + e) ≤ n / d := by
        rw [show 52 + e = (n / d).log2 by omega]
        exact Nat.log2_self_le (by
          intro hzero
          rw [hzero] at he
          simp at he
          omega)
      rw [← Nat.div_div_eq_div_mul, Nat.le_div_iff_mul_le (by positivity), ← pow_add]
      exact hle
    have hsmall : n / (d' * 2 ^ e') < 2 ^ 53 := by
      rw [← Nat.div_div_eq_div_mul, Nat.div_lt_iff_lt_mul (by positivity), ← pow_add]
      exact Nat.lt_log2_self.trans_le (Nat.pow_le_pow_right (by decide) (by omega))
    calc roundDiv n (d' * 2 ^ e') * 2 ^ e' ≤ 2 ^ 53 * 2 ^ e' :=
          Nat.mul_le_mul_right _ ((roundDiv_le n _).trans hsmall)
      _ = 2 ^ (53 + e') := (pow_add 2 53 e').symm
      _ ≤ 2 ^ (52 + e) := Nat.pow_le_pow_right (by decide) (by omega)
      _ = 2 ^ 52 * 2 ^ e := pow_add 2 52 e
      _ ≤ roundDiv n (d * 2 ^ e) * 2 ^ e :=
          Nat.mul_le_mul_right _ (hbig.trans (div_le_roundDiv n _))

/-- The representable magnitude nearest to the multiple `n / d`. -/
def roundUnits (n d : Nat) : Nat :=
  let e := (n / d).log2 - 23
  min (roundDiv n (d * 2 ^ e) * 2 ^ e) infinityUnits

private theorem representable_mul_two_pow {m e : Nat} (hm : m ≤ 2 ^ 24)
    (hb : m * 2 ^ e ≤ infinityUnits) : Representable (m * 2 ^ e) := by
  refine ⟨hb, ?_⟩
  by_cases h0 : m = 0
  · simp only [h0, zero_mul, dvd_zero]
  · have hp : m * 2 ^ e ≠ 0 := Nat.mul_ne_zero h0 (by positivity)
    rcases Nat.lt_or_ge m (2 ^ 24) with hlt | hge
    · have hl : (m * 2 ^ e).log2 < 24 + e := by
        rw [Nat.log2_lt hp, pow_add]
        exact Nat.mul_lt_mul_of_pos_right hlt (by positivity)
      exact (pow_dvd_pow 2 (by omega)).trans (dvd_mul_left _ _)
    · have hm' : m = 2 ^ 24 := le_antisymm hm hge
      rw [hm', ← pow_add, Nat.log2_two_pow]
      exact pow_dvd_pow 2 (by omega)

/-- Rounding always yields a representable magnitude. -/
theorem representable_roundUnits (n d : Nat) : Representable (roundUnits n d) := by
  have hq : n / (d * 2 ^ ((n / d).log2 - 23)) < 2 ^ 24 := by
    rw [← Nat.div_div_eq_div_mul, Nat.div_lt_iff_lt_mul (by positivity), ← pow_add]
    exact Nat.lt_log2_self.trans_le (Nat.pow_le_pow_right (by decide) (by omega))
  have hr := roundDiv_le n (d * 2 ^ ((n / d).log2 - 23))
  unfold roundUnits
  simp only
  rcases Nat.le_total (roundDiv n (d * 2 ^ ((n / d).log2 - 23)) * 2 ^ ((n / d).log2 - 23))
      infinityUnits with h | h
  · rw [min_eq_left h]
    exact representable_mul_two_pow (by omega) h
  · rw [min_eq_right h]
    decide

/-- The number nearest to `± n / d` multiples. -/
def ofRatio (negative : Bool) (n d : Nat) : Binary32 :=
  num (if negative then -(roundUnits n d : Int) else roundUnits n d) (by
    cases negative <;> simpa using representable_roundUnits n d)

/-- The number nearest to an integer. -/
def ofInt (n : Int) : Binary32 := ofRatio (n < 0) (n.natAbs * 2 ^ 149) 1

/-- The positive zero. -/
def zero : Binary32 := num 0 (by decide)

/-- The positive infinity, which lies one step of the largest exponent above the largest number. -/
def infinity : Binary32 := num infinityUnits (by decide)

/-- The largest finite number. -/
def maxFinite : Binary32 := num ((2 ^ 24 - 1) * 2 ^ 253 : Nat) (by decide)

/-- A magnitude with the sign of a quotient or a product. -/
private def signedInfinity (negative : Bool) : Binary32 :=
  if negative then num (-infinityUnits) (by decide) else infinity

/-- The value is one of the two infinities. -/
def isInfinite : Binary32 → Bool
  | nan => false
  | num a _ => a.natAbs == infinityUnits

/-- The magnitude of a value, and NaN for NaN. -/
def abs : Binary32 → Binary32
  | nan => nan
  | num a h => num a.natAbs h

/-- The difference, rounded to the nearest value. The difference of an infinity and itself is
NaN. -/
def sub : Binary32 → Binary32 → Binary32
  | num a ha, num b hb =>
      if isInfinite (num a ha) && isInfinite (num b hb) && a == b then nan
      else if isInfinite (num a ha) then num a ha
      else if isInfinite (num b hb) then num (-b) (by simpa using hb)
      else ofRatio (a - b < 0) (a - b).natAbs 1
  | _, _ => nan

/-- The product, rounded to the nearest value. The product of an infinity and zero is NaN. -/
def mul : Binary32 → Binary32 → Binary32
  | num a ha, num b hb =>
      if isInfinite (num a ha) || isInfinite (num b hb) then
        if a * b == 0 then nan else signedInfinity (a * b < 0)
      else ofRatio (a * b < 0) (a * b).natAbs (2 ^ 149)
  | _, _ => nan

/-- Quotient; a zero divisor has no sign of its own here. -/
def div : Binary32 → Binary32 → Binary32
  | num a ha, num b hb =>
      if isInfinite (num a ha) && isInfinite (num b hb) then nan
      else if isInfinite (num a ha) then signedInfinity ((a < 0) != (b < 0))
      else if isInfinite (num b hb) then zero
      else if b == 0 then if a == 0 then nan else signedInfinity (a < 0)
      else ofRatio ((a < 0) != (b < 0)) (a.natAbs * 2 ^ 149) b.natAbs
  | _, _ => nan

/-- The nearest integral number, halves away from zero. -/
def round : Binary32 → Binary32
  | nan => nan
  | num a h =>
      if isInfinite (num a h) then num a h
      else ofRatio (a < 0) ((2 * a.natAbs + 2 ^ 149) / 2 ^ 150 * 2 ^ 149) 1

/-- Truncation to an integer type with the given range; out of range it is undefined. -/
def toInt (lo hi : Int) : Binary32 → Option Int
  | nan => none
  | num a h =>
      if isInfinite (num a h) then none
      else
        let t := a.tdiv (2 ^ 149)
        if lo ≤ t ∧ t ≤ hi then some t else none

/-- The multiples that one is made of in double precision. -/
def doubleUnits : Nat := 2 ^ 1074

/-- The quotient of an integer by a number in double precision, truncated to a 64-bit integer.
The quotient is rounded once. The conversion has a result only if the quotient is in the range
of the type. -/
def quotientToInt64 (n : Nat) : Binary32 → Option Int
  | nan => none
  | num units _ =>
      if units = 0 then none
      else
        let q : Int := (roundBits (n * 2 ^ 149 * doubleUnits) units.natAbs / doubleUnits : Nat)
        let i := if units < 0 then -q else q
        if -2 ^ 63 ≤ i ∧ i < 2 ^ 63 then some i else none

@[simp] theorem toInt_nan (lo hi : Int) : toInt lo hi nan = none := rfl

/-- The whole part of a number. -/
def wholePart : Binary32 → Int
  | nan => 0
  | num a _ => a.tdiv (2 ^ 149)

/-- A finite number whose whole part is in a range. -/
def FitsIn (lo hi : Int) (x : Binary32) : Prop :=
  x ≠ nan ∧ x.isInfinite = false ∧ lo ≤ x.wholePart ∧ x.wholePart ≤ hi

instance (lo hi : Int) (x : Binary32) : Decidable (x.FitsIn lo hi) :=
  inferInstanceAs (Decidable (_ ∧ _))

/-- The conversion to an integer type gives the whole part of a number that fits. -/
theorem toInt_eq_some_iff {lo hi n : Int} {x : Binary32} :
    x.toInt lo hi = some n ↔ x.FitsIn lo hi ∧ x.wholePart = n := by
  cases x with
  | nan => exact iff_of_false (fun h => by cases h) fun h => h.1.1 rfl
  | num a h =>
      rw [toInt, FitsIn, wholePart]
      by_cases hinfinite : isInfinite (num a h) = true
      · rw [if_pos hinfinite, hinfinite]
        exact iff_of_false (fun h => by cases h) fun h => absurd h.1.2.1 (by decide)
      · rw [if_neg hinfinite, Bool.eq_false_of_not_eq_true hinfinite]
        by_cases hrange : lo ≤ a.tdiv (2 ^ 149) ∧ a.tdiv (2 ^ 149) ≤ hi
        · rw [if_pos hrange, Option.some.injEq]
          exact (and_iff_right ⟨Binary32.noConfusion, rfl, hrange⟩).symm
        · rw [if_neg hrange]
          exact iff_of_false (fun h => by cases h) fun h => hrange h.1.2.2

@[simp] theorem div_nan (a : Binary32) : div a nan = nan := by
  cases a <;> rfl

/-- The difference of infinity with itself is not a number. -/
theorem sub_infinity_infinity : sub infinity infinity = nan := by decide

/-- A representable magnitude above the largest finite one is infinite. -/
private theorem eq_infinityUnits {n : Nat} (h : Representable n)
    (hn : (2 ^ 24 - 1) * 2 ^ 253 < n) : n = infinityUnits := by
  have hlog : 276 ≤ n.log2 := by
    rw [Nat.le_log2 (by omega)]
    have : 2 ^ 276 ≤ (2 ^ 24 - 1) * 2 ^ 253 := by
      rw [show (276 : Nat) = 23 + 253 from rfl, pow_add]
      exact Nat.mul_le_mul_right _ (by decide)
    omega
  obtain ⟨k, rfl⟩ := (pow_dvd_pow 2 (by omega : 253 ≤ n.log2 - 23)).trans h.2
  have hk : 2 ^ 24 - 1 < k := by
    rw [Nat.mul_comm] at hn
    exact Nat.lt_of_mul_lt_mul_left hn
  refine le_antisymm h.1 ?_
  rw [infinityUnits, ← pow_add, show 128 + 149 = 253 + 24 from rfl, pow_add]
  exact Nat.mul_le_mul_left _ (by omega)

/-- A number other than infinity is at most the largest finite one. -/
theorem le_maxFinite {a : Binary32} (hn : a ≠ nan) (hi : a ≠ infinity) :
    le a maxFinite = true := by
  cases a with
  | nan => exact absurd rfl hn
  | num a h =>
      simp only [le, maxFinite, decide_eq_true_eq]
      by_contra hlt
      apply hi
      obtain ⟨n, rfl⟩ := Int.eq_ofNat_of_zero_le (by omega : 0 ≤ a)
      have hu := eq_infinityUnits h (by simpa only [Int.natAbs_natCast] using (by omega))
      simp only [Int.natAbs_natCast] at hu
      simp only [infinity, hu]

/-- A quotient by a positive number is rounded as a double and then truncated. -/
theorem quotientToInt64_of_pos {n : Nat} {u i : Int} {hu : Representable u.natAbs} (hpos : 0 < u)
    (h : quotientToInt64 n (num u hu) = some i) :
    i = (roundBits (n * 2 ^ 149 * doubleUnits) u.natAbs / doubleUnits : Nat) := by
  simp only [quotientToInt64] at h
  rw [if_neg hpos.ne', if_neg (not_lt.mpr hpos.le)] at h
  split at h
  · exact (Option.some.inj h).symm
  · cases h

/-- A positive divisor that is not less has no larger quotient. -/
theorem quotientToInt64_antitone {n : Nat} {a b : Binary32} {i j : Int}
    (ha : lt zero a = true) (hab : le a b = true) (hi : quotientToInt64 n a = some i)
    (hj : quotientToInt64 n b = some j) : j ≤ i := by
  cases a with
  | nan => cases ha
  | num u hu =>
      cases b with
      | nan => cases hab
      | num v hv =>
          simp only [lt, le, zero, decide_eq_true_eq] at ha hab
          have hle : roundBits (n * 2 ^ 149 * doubleUnits) v.natAbs / doubleUnits ≤
              roundBits (n * 2 ^ 149 * doubleUnits) u.natAbs / doubleUnits :=
            Nat.div_le_div_right (roundBits_antitone _ (by omega) (by omega))
          rw [quotientToInt64_of_pos ha hi, quotientToInt64_of_pos (ha.trans_le hab) hj]
          exact Int.ofNat_le.mpr hle

end Binary32

end VhalCore
