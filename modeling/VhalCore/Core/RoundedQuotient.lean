import VhalCore.Core.Binary32
import Mathlib.Tactic.Linarith

/-!
# Rounded quotients of small integers

A quotient in single precision is rounded twice before it is an integer: to a number, and then to
the nearest integer. For small integers the first rounding does not matter: a quotient below a
half is rounded to a number below it or to the half only if it is that close to it, which needs
more than 24 bits.
-/

namespace VhalCore.Binary32

theorem roundDiv_of_dvd {n d : Nat} (hd : 0 < d) (h : d ∣ n) : roundDiv n d = n / d := by
  rw [roundDiv, Nat.mod_eq_zero_of_dvd h, if_pos (by omega)]

/-- An integer of 24 bits is a number. -/
theorem roundUnits_of_lt {m : Nat} (hm : m < 2 ^ 24) :
    roundUnits (m * 2 ^ 149) 1 = m * 2 ^ 149 := by
  have hsmall : m * 2 ^ 149 ≤ infinityUnits := by
    have hmul := Nat.mul_le_mul_right (2 ^ 149) hm.le
    rw [infinityUnits]
    omega
  have hdvd : 2 ^ ((m * 2 ^ 149).log2 - 23) ∣ m * 2 ^ 149 := by
    refine Dvd.dvd.mul_left (pow_dvd_pow 2 ?_) m
    by_cases hzero : m * 2 ^ 149 = 0
    · rw [hzero, Nat.log2_zero]
      omega
    · have hlog : (m * 2 ^ 149).log2 < 24 + 149 := by
        rw [Nat.log2_lt hzero, pow_add]
        exact Nat.mul_lt_mul_of_pos_right hm (by positivity)
      omega
  rw [roundUnits, Nat.div_one, Nat.one_mul, roundDiv_of_dvd (by positivity) hdvd,
    Nat.div_mul_cancel hdvd, min_eq_left hsmall]

/-- The comparison of a rounded quotient with the halves, in units of the last bit. -/
theorem rounded_half {a d r q m : Nat} (hd : 0 < d) (hdq : d < 2 * q)
    (hlower : 2 * (a * (2 * q)) ≤ (2 * r + 1) * d) (hupper : 2 * r * d ≤ 2 * (a * (2 * q)) + d)
    (hm : 2 * d * m ≤ 2 * a + d) (hm' : 2 * a + d < 2 * d * (m + 1)) :
    m * (2 * (2 * q)) ≤ 2 * r + 2 * q ∧ 2 * r + 2 * q < (m + 1) * (2 * (2 * q)) := by
  constructor
  · have hmul : (m * (2 * (2 * q))) * d ≤ (2 * r + 1 + 2 * q) * d := by
      nlinarith [Nat.mul_le_mul_right (2 * q) hm]
    have hle := Nat.le_of_mul_le_mul_right hmul hd
    have heven : m * (2 * (2 * q)) = 2 * (2 * (m * q)) := by ring
    omega
  · have hmul : (2 * r + 2 * q) * d < ((m + 1) * (2 * (2 * q))) * d := by
      nlinarith [Nat.mul_le_mul_right (2 * q) (Nat.succ_le_of_lt hm')]
    exact Nat.lt_of_mul_lt_mul_right hmul

/-- The last bit of a quotient is worth less than the share of a divisor in one. -/
theorem lastBit_mul_lt {a d p : Nat} (ha : a < 2 ^ 23) (hd : d < p) :
    2 ^ ((a * p / d).log2 - 23) * d < p := by
  by_cases hzero : (a * p / d).log2 - 23 = 0
  · rwa [hzero, pow_zero, Nat.one_mul]
  · have hne : a * p / d ≠ 0 := by
      intro h
      rw [h, Nat.log2_zero] at hzero
      omega
    have hself := Nat.mul_le_mul_right d (Nat.log2_self_le hne)
    have hsplit : 2 ^ (a * p / d).log2 = 2 ^ ((a * p / d).log2 - 23) * 2 ^ 23 := by
      rw [← pow_add, Nat.sub_add_cancel (by omega)]
    rw [hsplit] at hself
    have hbound : 2 ^ ((a * p / d).log2 - 23) * d * 2 ^ 23 < p * 2 ^ 23 := by
      calc 2 ^ ((a * p / d).log2 - 23) * d * 2 ^ 23
          = 2 ^ ((a * p / d).log2 - 23) * 2 ^ 23 * d := by ring
        _ ≤ a * p := hself.trans (Nat.div_mul_le_self _ _)
        _ < 2 ^ 23 * p := Nat.mul_lt_mul_of_pos_right ha (by omega)
        _ = p * 2 ^ 23 := Nat.mul_comm ..
    exact Nat.lt_of_mul_lt_mul_right hbound

/-- The nearest integer to a rounded quotient is that to the quotient. A number is a multiple of
`2 ^ e`, and one is an even multiple of it. -/
theorem nearest_roundDiv {a d q e : Nat} (hd : 0 < d) (hbit : 2 ^ e * d < 2 * q * 2 ^ e) :
    (2 * (roundDiv (a * (2 * q * 2 ^ e) * (2 * q * 2 ^ e)) (d * (2 * q * 2 ^ e) * 2 ^ e) * 2 ^ e) +
        2 * q * 2 ^ e) / (2 * (2 * q * 2 ^ e)) =
      (2 * a + d) / (2 * d) := by
  have hepos : 0 < 2 ^ e := by positivity
  have hdq : d < 2 * q := by
    rw [Nat.mul_comm] at hbit
    exact Nat.lt_of_mul_lt_mul_right hbit
  have hone : 0 < 2 * q * 2 ^ e := Nat.mul_pos (by omega) hepos
  obtain ⟨hlower, hupper⟩ := roundDiv_bounds (a * (2 * q * 2 ^ e) * (2 * q * 2 ^ e))
    (Nat.mul_pos (Nat.mul_pos hd hone) hepos)
  generalize roundDiv (a * (2 * q * 2 ^ e) * (2 * q * 2 ^ e)) (d * (2 * q * 2 ^ e) * 2 ^ e) = r
    at hlower hupper ⊢
  have hscale : 0 < 2 * q * 2 ^ e * 2 ^ e := Nat.mul_pos hone hepos
  have hlower' : 2 * (a * (2 * q)) ≤ (2 * r + 1) * d := by
    refine Nat.le_of_mul_le_mul_right (c := 2 * q * 2 ^ e * 2 ^ e) ?_ hscale
    calc 2 * (a * (2 * q)) * (2 * q * 2 ^ e * 2 ^ e)
        = 2 * (a * (2 * q * 2 ^ e) * (2 * q * 2 ^ e)) := by ring
      _ ≤ (2 * r + 1) * (d * (2 * q * 2 ^ e) * 2 ^ e) := hlower
      _ = (2 * r + 1) * d * (2 * q * 2 ^ e * 2 ^ e) := by ring
  have hupper' : 2 * r * d ≤ 2 * (a * (2 * q)) + d := by
    refine Nat.le_of_mul_le_mul_right (c := 2 * q * 2 ^ e * 2 ^ e) ?_ hscale
    calc 2 * r * d * (2 * q * 2 ^ e * 2 ^ e)
        = 2 * r * (d * (2 * q * 2 ^ e) * 2 ^ e) := by ring
      _ ≤ 2 * (a * (2 * q * 2 ^ e) * (2 * q * 2 ^ e)) + d * (2 * q * 2 ^ e) * 2 ^ e := hupper
      _ = (2 * (a * (2 * q)) + d) * (2 * q * 2 ^ e * 2 ^ e) := by ring
  obtain ⟨hle, hlt⟩ := rounded_half (m := (2 * a + d) / (2 * d)) hd hdq hlower' hupper'
    (Nat.mul_div_le ..) (Nat.lt_mul_div_succ _ (by omega))
  refine Nat.div_eq_of_lt_le ?_ ?_
  · calc (2 * a + d) / (2 * d) * (2 * (2 * q * 2 ^ e))
        = (2 * a + d) / (2 * d) * (2 * (2 * q)) * 2 ^ e := by ring
      _ ≤ (2 * r + 2 * q) * 2 ^ e := Nat.mul_le_mul_right _ hle
      _ = 2 * (r * 2 ^ e) + 2 * q * 2 ^ e := by ring
  · calc 2 * (r * 2 ^ e) + 2 * q * 2 ^ e = (2 * r + 2 * q) * 2 ^ e := by ring
      _ < ((2 * a + d) / (2 * d) + 1) * (2 * (2 * q)) * 2 ^ e :=
          Nat.mul_lt_mul_of_pos_right hlt hepos
      _ = ((2 * a + d) / (2 * d) + 1) * (2 * (2 * q * 2 ^ e)) := by ring

/-- The rounded quotient of two small integers, in multiples of the unit. -/
theorem roundUnits_quotient {a d : Nat} (ha : a < 2 ^ 23) (hd : 0 < d) (hd' : d < 2 ^ 24) :
    roundUnits (a * 2 ^ 149 * 2 ^ 149) (d * 2 ^ 149) < infinityUnits ∧
      (2 * roundUnits (a * 2 ^ 149 * 2 ^ 149) (d * 2 ^ 149) + 2 ^ 149) / 2 ^ 150 =
        (2 * a + d) / (2 * d) := by
  have hone : d < 2 ^ 149 := hd'.trans (Nat.pow_lt_pow_right (by decide) (by decide))
  have hbit := lastBit_mul_lt ha hone
  rw [roundUnits, Nat.mul_div_mul_right _ _ (by positivity)]
  generalize (a * 2 ^ 149 / d).log2 - 23 = e at hbit ⊢
  have he : e < 149 := by
    refine (Nat.pow_lt_pow_iff_right (by decide : 1 < 2)).mp (lt_of_le_of_lt ?_ hbit)
    exact Nat.le_mul_of_pos_right _ hd
  have hunit : 2 ^ 149 = 2 * 2 ^ (148 - e) * 2 ^ e := by
    rw [← pow_succ', ← pow_add]
    congr 1
    omega
  have hnearest : (2 * (roundDiv (a * 2 ^ 149 * 2 ^ 149) (d * 2 ^ 149 * 2 ^ e) * 2 ^ e) +
      2 ^ 149) / 2 ^ 150 = (2 * a + d) / (2 * d) := by
    rw [pow_succ' 2 149, hunit]
    exact nearest_roundDiv hd (by rwa [hunit] at hbit)
  have hsmall : (2 * a + d) / (2 * d) < 2 ^ 24 := by
    rw [Nat.div_lt_iff_lt_mul (by omega)]
    omega
  have hfinite :
      roundDiv (a * 2 ^ 149 * 2 ^ 149) (d * 2 ^ 149 * 2 ^ e) * 2 ^ e < infinityUnits := by
    rw [← hnearest, Nat.div_lt_iff_lt_mul (by positivity)] at hsmall
    rw [infinityUnits]
    omega
  rw [min_eq_left hfinite.le]
  exact ⟨hfinite, hnearest⟩

theorem ofRatio_eq {n d u : Nat} (hu : roundUnits n d = u) :
    ∃ h, ofRatio false n d = num u h := by
  subst hu
  exact ⟨_, rfl⟩

theorem ofInt_natCast (n : Nat) : ofInt n = ofRatio false (n * 2 ^ 149) 1 := by
  have hneg : decide ((n : Int) < 0) = false := decide_eq_false (by omega)
  rw [ofInt, hneg, Int.natAbs_natCast]

/-- A small integer as a number. -/
theorem ofInt_of_lt {m : Nat} (hm : m < 2 ^ 24) : ∃ h, ofInt m = num (m * 2 ^ 149 : Nat) h := by
  rw [ofInt_natCast]
  exact ofRatio_eq (roundUnits_of_lt hm)

theorem isInfinite_of_lt {n : Nat} (h : Representable (n : Int).natAbs) (hn : n < infinityUnits) :
    isInfinite (num n h) = false := by
  simp only [isInfinite, Int.natAbs_natCast, beq_eq_false_iff_ne]
  omega

theorem unit_lt {m : Nat} (hm : m < 2 ^ 24) : m * 2 ^ 149 < infinityUnits := by
  rw [infinityUnits]
  omega

/-- The quotient of two finite numbers that are not negative. -/
theorem div_num {u v : Nat} (hu : Representable (u : Int).natAbs)
    (hv : Representable (v : Int).natAbs) (hufinite : u < infinityUnits)
    (hvfinite : v < infinityUnits) (hpos : 0 < v) :
    div (num u hu) (num v hv) = ofRatio false (u * 2 ^ 149) v := by
  have hzero : ((v : Int) == 0) = false := by
    rw [beq_eq_false_iff_ne]
    omega
  have hsigns : (decide ((u : Int) < 0) != decide ((v : Int) < 0)) = false := by
    rw [decide_eq_false (by omega), decide_eq_false (by omega)]
    rfl
  simp only [div, isInfinite_of_lt hu hufinite, isInfinite_of_lt hv hvfinite, Bool.and_false,
    Bool.false_eq_true, if_false, hzero, hsigns, Int.natAbs_natCast]

/-- The rounding of a finite number that is not negative. -/
theorem round_num {u : Nat} (hu : Representable (u : Int).natAbs) (hfinite : u < infinityUnits) :
    round (num u hu) = ofInt ((2 * u + 2 ^ 149) / 2 ^ 150 : Nat) := by
  have hneg : decide ((u : Int) < 0) = false := decide_eq_false (by omega)
  rw [ofInt_natCast, round, isInfinite_of_lt hu hfinite, hneg, Int.natAbs_natCast]
  exact if_neg Bool.false_ne_true

/-- The quotient of small integers, rounded to an integer. -/
theorem round_div_ofInt {a d : Nat} (ha : a < 2 ^ 23) (hd : 0 < d) (hd' : d < 2 ^ 24) :
    ((ofInt a).div (ofInt d)).round = ofInt ((2 * a + d) / (2 * d) : Nat) := by
  obtain ⟨hfinite, hnearest⟩ := roundUnits_quotient ha hd hd'
  have ha' : a < 2 ^ 24 := by omega
  obtain ⟨hn, hnum⟩ := ofInt_of_lt ha'
  obtain ⟨hm, hden⟩ := ofInt_of_lt hd'
  have hpos : 0 < d * 2 ^ 149 := Nat.mul_pos hd (by positivity)
  obtain ⟨hu, hquotient⟩ := ofRatio_eq (n := a * 2 ^ 149 * 2 ^ 149) (d := d * 2 ^ 149) rfl
  rw [hnum, hden, div_num hn hm (unit_lt ha') (unit_lt hd') hpos, hquotient,
    round_num hu hfinite, hnearest]

/-- A small integer is converted to itself. -/
theorem toInt_ofInt {m : Nat} (hm : m < 2 ^ 24) {lo hi : Int} (hlo : lo ≤ m) (hhi : m ≤ hi) :
    (ofInt m).toInt lo hi = some (m : Int) := by
  obtain ⟨h, hnum⟩ := ofInt_of_lt hm
  have hdiv : ((m * 2 ^ 149 : Nat) : Int).tdiv (2 ^ 149) = m := by
    rw [Nat.cast_mul, Nat.cast_pow, Nat.cast_ofNat, Int.mul_tdiv_cancel _ (by decide)]
  rw [hnum, toInt, isInfinite_of_lt h (unit_lt hm)]
  simp only [hdiv, hlo, hhi, and_self, if_true]
  rfl

end VhalCore.Binary32
