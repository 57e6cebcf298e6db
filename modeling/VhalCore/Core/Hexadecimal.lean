import Mathlib.Algebra.Group.Nat.Even
import Mathlib.Data.List.Basic
import Mathlib.Data.UInt

/-!
# Hexadecimal texts of bytes

A byte is written as two digits with the more significant one first. Texts are lists of the bytes
of their characters. The digits of a byte string are lower-case; a text in which letters of both
cases stand is brought to it by `toLowerAscii`.
-/

namespace VhalCore.Hex

/-- The character of a digit. -/
def digitChar (v : UInt8) : UInt8 := if v < 10 then 48 + v else 87 + v

/-- The value of a character, unless it is no lower-case digit. -/
def digitValue? (c : UInt8) : Option UInt8 :=
  if 48 ≤ c ∧ c ≤ 57 then some (c - 48)
  else if 97 ≤ c ∧ c ≤ 102 then some (c - 97 + 10)
  else none

/-- A digit in either case. -/
def IsDigit (c : UInt8) : Prop :=
  48 ≤ c ∧ c ≤ 57 ∨ 97 ≤ c ∧ c ≤ 102 ∨ 65 ≤ c ∧ c ≤ 70

instance (c : UInt8) : Decidable (IsDigit c) := inferInstanceAs (Decidable (_ ∨ _))

/-- `tolower` in the C locale. -/
def toLowerAscii (c : UInt8) : UInt8 := if 65 ≤ c ∧ c ≤ 90 then c + 32 else c

/-- The two digits of a byte. -/
def ofByte (b : UInt8) : List UInt8 := [digitChar (b / 16), digitChar (b % 16)]

/-- The digits of all bytes, in order. -/
def ofBytes (bytes : List UInt8) : List UInt8 := bytes.flatMap ofByte

/-- The byte that two digits are written for. -/
def byteOf? (c d : UInt8) : Option UInt8 :=
  (digitValue? c).bind fun v => (digitValue? d).map fun w => v * 16 + w


section Digits

theorem digitValue?_eq_some_iff {c v : UInt8} :
    digitValue? c = some v ↔ v < 16 ∧ digitChar v = c := by
  unfold digitValue? digitChar
  grind

theorem digitValue?_digitChar {v : UInt8} (hv : v < 16) : digitValue? (digitChar v) = some v :=
  digitValue?_eq_some_iff.mpr ⟨hv, rfl⟩

theorem isSome_digitValue?_toLowerAscii (c : UInt8) :
    (digitValue? (toLowerAscii c)).isSome ↔ IsDigit c := by
  unfold toLowerAscii digitValue? IsDigit
  grind

theorem toLowerAscii_digitChar {v : UInt8} (hv : v < 16) :
    toLowerAscii (digitChar v) = digitChar v := by
  unfold toLowerAscii digitChar
  grind

theorem high_lt (b : UInt8) : b / 16 < 16 := by grind

theorem low_lt (b : UInt8) : b % 16 < 16 := by grind

theorem high_low (b : UInt8) : b / 16 * 16 + b % 16 = b := by
  have := b.toNat_lt
  apply UInt8.toNat_inj.mp
  simp only [UInt8.toNat_add, UInt8.toNat_mul, UInt8.toNat_div, UInt8.toNat_mod, UInt8.reduceToNat]
  omega

/-- The digits of a byte that is put together from their values. -/
theorem halves_of_digits {v w : UInt8} (hv : v < 16) (hw : w < 16) :
    (v * 16 + w) / 16 = v ∧ (v * 16 + w) % 16 = w := by
  simp only [UInt8.lt_iff_toNat_lt, UInt8.reduceToNat] at hv hw
  constructor <;>
  · apply UInt8.toNat_inj.mp
    simp only [UInt8.toNat_add, UInt8.toNat_mul, UInt8.toNat_div, UInt8.toNat_mod,
      UInt8.reduceToNat]
    omega

end Digits

section Bytes

/-- Two digits denote a byte exactly if they are its digits. -/
theorem byteOf?_eq_some_iff {b c d : UInt8} : byteOf? c d = some b ↔ ofByte b = [c, d] := by
  constructor
  · intro h
    obtain ⟨v, hc, hrest⟩ := Option.bind_eq_some_iff.mp h
    obtain ⟨w, hd, rfl⟩ := Option.map_eq_some_iff.mp hrest
    obtain ⟨hv, rfl⟩ := digitValue?_eq_some_iff.mp hc
    obtain ⟨hw, rfl⟩ := digitValue?_eq_some_iff.mp hd
    obtain ⟨hhigh, hlow⟩ := halves_of_digits hv hw
    rw [ofByte, hhigh, hlow]
  · intro h
    rw [ofByte, List.cons.injEq, List.cons.injEq] at h
    obtain ⟨rfl, rfl, _⟩ := h
    rw [byteOf?, digitValue?_digitChar (high_lt b), digitValue?_digitChar (low_lt b),
      Option.bind_some, Option.map_some, high_low]

@[simp] theorem ofBytes_cons (b : UInt8) (bytes : List UInt8) :
    ofBytes (b :: bytes) = ofByte b ++ ofBytes bytes := rfl

theorem ofBytes_eq_nil_iff {bytes : List UInt8} : ofBytes bytes = [] ↔ bytes = [] := by
  cases bytes with
  | nil => exact iff_of_true rfl rfl
  | cons b bytes => exact iff_of_false (List.cons_ne_nil _ _) (List.cons_ne_nil _ _)

/-- A text of two digits and more is that of some bytes exactly if the two digits denote the
first. -/
theorem ofBytes_eq_cons_cons_iff {bytes text : List UInt8} {c d : UInt8} :
    ofBytes bytes = c :: d :: text ↔
      ∃ b rest, bytes = b :: rest ∧ byteOf? c d = some b ∧ ofBytes rest = text := by
  constructor
  · intro h
    cases bytes with
    | nil => cases h
    | cons b rest =>
        rw [ofBytes_cons, ofByte, List.cons_append, List.cons_append, List.cons.injEq,
          List.cons.injEq] at h
        obtain ⟨rfl, rfl, hrest⟩ := h
        exact ⟨b, rest, rfl, byteOf?_eq_some_iff.mpr rfl, hrest⟩
  · rintro ⟨b, rest, rfl, hb, rfl⟩
    rw [ofBytes_cons, byteOf?_eq_some_iff.mp hb]
    rfl

/-- Each byte has two digits. -/
theorem length_ofBytes (bytes : List UInt8) : (ofBytes bytes).length = 2 * bytes.length := by
  induction bytes with
  | nil => rfl
  | cons b bytes ih =>
      rw [ofBytes_cons, List.length_append, ih, List.length_cons, ofByte]
      simp only [List.length_cons, List.length_nil]
      omega

/-- The digits are lower case. -/
theorem map_toLowerAscii_ofBytes (bytes : List UInt8) :
    (ofBytes bytes).map toLowerAscii = ofBytes bytes := by
  induction bytes with
  | nil => rfl
  | cons b bytes ih =>
      rw [ofBytes_cons, List.map_append, ih, ofByte, List.map_cons, List.map_singleton,
        toLowerAscii_digitChar (high_lt b), toLowerAscii_digitChar (low_lt b)]

/-- The texts of byte strings are those of an even number of lower-case digits. -/
theorem exists_ofBytes_eq_iff (text : List UInt8) :
    (∃ bytes, ofBytes bytes = text) ↔
      Even text.length ∧ ∀ c ∈ text, (digitValue? c).isSome := by
  constructor
  · rintro ⟨bytes, rfl⟩
    refine ⟨⟨bytes.length, by rw [length_ofBytes, Nat.two_mul]⟩, fun c hc => ?_⟩
    obtain ⟨b, _, hb⟩ := List.mem_flatMap.mp hc
    rw [ofByte, List.mem_cons, List.mem_singleton] at hb
    rcases hb with rfl | rfl
    · rw [digitValue?_digitChar (high_lt b), Option.isSome_some]
    · rw [digitValue?_digitChar (low_lt b), Option.isSome_some]
  · rintro ⟨heven, hdigits⟩
    induction text using List.twoStepInduction with
    | nil => exact ⟨[], rfl⟩
    | singleton c => exact absurd heven (by simp)
    | cons_cons c d text ih =>
        obtain ⟨v, hv⟩ := Option.isSome_iff_exists.mp (hdigits c (by simp))
        obtain ⟨w, hw⟩ := Option.isSome_iff_exists.mp (hdigits d (by simp))
        have hpair : byteOf? c d = some (v * 16 + w) := by
          rw [byteOf?, hv, hw, Option.bind_some, Option.map_some]
        have hrest : Even text.length := by
          simpa only [List.length_cons, Nat.even_add_one, not_not] using heven
        obtain ⟨bytes, hbytes⟩ := ih hrest fun x hx => hdigits x (by simp [hx])
        refine ⟨(v * 16 + w) :: bytes, ?_⟩
        rw [ofBytes_cons, byteOf?_eq_some_iff.mp hpair, hbytes]
        rfl

end Bytes

end VhalCore.Hex
