import Mathlib.Algebra.Group.Nat.Defs
import Mathlib.Data.List.Basic

/-!
# Numerals as the C library reads them

`strtoul` with base zero skips white space, takes a sign, tells the base from the first
characters and reads as many digits as there are. It does not ask what comes after them.
A `Numeral` is a text that is digits from its first character to its last.
-/

namespace VhalCore

/-- The value of a digit; letters are the digits from ten on. -/
def digitValue (c : Char) : Option Nat :=
  if 48 ≤ c.toNat ∧ c.toNat ≤ 57 then some (c.toNat - 48)
  else if 97 ≤ c.toNat ∧ c.toNat ≤ 122 then some (c.toNat - 87)
  else if 65 ≤ c.toNat ∧ c.toNat ≤ 90 then some (c.toNat - 55)
  else none

/-- The value of a digit of a base. -/
def digitIn (base : Nat) (c : Char) : Option Nat := (digitValue c).filter (· < base)

/-- The digits that a text begins with, and the text after them. -/
def scanDigits (base : Nat) : List Char → List Nat × List Char
  | [] => ([], [])
  | c :: text =>
      match digitIn base c with
      | none => ([], c :: text)
      | some d => (d :: (scanDigits base text).1, (scanDigits base text).2)

/-- The number that digits denote in a base, the most significant digit first. -/
def valueOfDigits (base : Nat) (digits : List Nat) : Nat :=
  digits.foldl (fun n d => n * base + d) 0

/-- The white space of the C locale. -/
def isSpace (c : Char) : Bool := c.toNat = 32 ∨ 9 ≤ c.toNat ∧ c.toNat ≤ 13

/-- The base that the first characters of a text tell, and the text of the digits. -/
def detectBase : List Char → Nat × List Char
  | '0' :: x :: c :: text =>
      if (x = 'x' ∨ x = 'X') ∧ (digitIn 16 c).isSome then (16, c :: text)
      else (8, '0' :: x :: c :: text)
  | '0' :: text => (8, '0' :: text)
  | text => (10, text)

/-- A minus or plus sign that a text begins with, and the text after it. -/
def takeSign : List Char → Bool × List Char
  | '-' :: text => (true, text)
  | '+' :: text => (false, text)
  | text => (false, text)

/-- The number that a text begins with: its sign, its magnitude and the text after it. -/
def scanNumber (text : List Char) : Option (Bool × Nat × List Char) :=
  let (negative, text) := takeSign (text.dropWhile isSpace)
  let (base, text) := detectBase text
  let (digits, rest) := scanDigits base text
  if digits = [] then none else some (negative, valueOfDigits base digits, rest)

/-- `std::stoul` with base zero on a 64-bit `unsigned long`; nothing where it throws. -/
def stoul (text : List Char) : Option Nat :=
  match scanNumber text with
  | none => none
  | some (negative, magnitude, _) =>
      if 2 ^ 64 ≤ magnitude then none
      else some (if negative then (2 ^ 64 - magnitude) % 2 ^ 64 else magnitude)

/-- The text is in its entirety a decimal, octal or hexadecimal numeral of the value. -/
inductive Numeral : List Char → Nat → Prop
  | decimal {c : Char} {text : List Char} {digits : List Nat} (hhead : c ≠ '0')
      (hdigits : (c :: text).mapM (digitIn 10) = some digits) :
      Numeral (c :: text) (valueOfDigits 10 digits)
  | octal {text : List Char} {digits : List Nat} (hdigits : text.mapM (digitIn 8) = some digits) :
      Numeral ('0' :: text) (valueOfDigits 8 digits)
  | hexadecimal {x : Char} {text : List Char} {digits : List Nat} (hx : x = 'x' ∨ x = 'X')
      (hne : text ≠ []) (hdigits : text.mapM (digitIn 16) = some digits) :
      Numeral ('0' :: x :: text) (valueOfDigits 16 digits)

section Digits

variable {base : Nat} {c : Char} {text : List Char} {digits : List Nat}

theorem digitValue_bounds {d : Nat} (h : digitValue c = some d) : 48 ≤ c.toNat := by
  unfold digitValue at h
  split_ifs at h <;> omega

theorem digitIn_bounds {d : Nat} (h : digitIn base c = some d) : 48 ≤ c.toNat :=
  digitValue_bounds (Option.filter_eq_some_iff.mp h).1

theorem scanDigits_cons {d : Nat} (h : digitIn base c = some d) :
    scanDigits base (c :: text) = (d :: (scanDigits base text).1, (scanDigits base text).2) := by
  simp only [scanDigits, h]

/-- A text of digits only is scanned to its end. -/
theorem scanDigits_of_mapM (h : text.mapM (digitIn base) = some digits) :
    scanDigits base text = (digits, []) := by
  induction text generalizing digits with
  | nil =>
      cases h
      rfl
  | cons c text ih =>
      rw [List.mapM_cons] at h
      obtain ⟨d, hd, h⟩ := Option.bind_eq_some_iff.mp h
      obtain ⟨ds, hds, h⟩ := Option.bind_eq_some_iff.mp h
      cases h
      rw [scanDigits_cons hd, ih hds]

/-- There is a digit for each character. -/
theorem length_of_mapM (h : text.mapM (digitIn base) = some digits) :
    digits.length = text.length := by
  induction text generalizing digits with
  | nil =>
      cases h
      rfl
  | cons c text ih =>
      rw [List.mapM_cons] at h
      obtain ⟨d, hd, h⟩ := Option.bind_eq_some_iff.mp h
      obtain ⟨ds, hds, h⟩ := Option.bind_eq_some_iff.mp h
      cases h
      rw [List.length_cons, List.length_cons, ih hds]

/-- Before a digit there is neither white space nor a sign to skip. -/
theorem takeSign_of_digit (h : 48 ≤ c.toNat) :
    takeSign ((c :: text).dropWhile isSpace) = (false, c :: text) := by
  have hspace : isSpace c = false := by
    simp only [isSpace, decide_eq_false_iff_not]
    omega
  rw [List.dropWhile_cons_of_neg (by simp [hspace])]
  unfold takeSign
  split
  · next h' => cases h'; exact absurd h (by decide)
  · next h' => cases h'; exact absurd h (by decide)
  · rfl

end Digits

section Scan

variable {text : List Char} {value : Nat}

/-- A text that does not begin with zero is decimal. -/
theorem detectBase_of_head_ne {c : Char} (hc : c ≠ '0') :
    detectBase (c :: text) = (10, c :: text) := by
  unfold detectBase
  split
  · next h => cases h; exact absurd rfl hc
  · next h => cases h; exact absurd rfl hc
  · rfl

theorem detectBase_of_hexadecimal {x c : Char} (hx : x = 'x' ∨ x = 'X')
    (hc : (digitIn 16 c).isSome) : detectBase ('0' :: x :: c :: text) = (16, c :: text) := by
  rw [detectBase, if_pos ⟨hx, hc⟩]

/-- An octal digit is no letter. -/
theorem detectBase_of_octal {digits : List Nat} (h : text.mapM (digitIn 8) = some digits) :
    detectBase ('0' :: text) = (8, '0' :: text) := by
  rcases text with _ | ⟨x, _ | ⟨c, text⟩⟩
  · rfl
  · rfl
  · rw [detectBase, if_neg]
    rintro ⟨hx, -⟩
    rw [List.mapM_cons] at h
    obtain ⟨d, hd, -⟩ := Option.bind_eq_some_iff.mp h
    rcases hx with rfl | rfl
    · exact absurd hd (by simp [show digitIn 8 'x' = none by decide])
    · exact absurd hd (by simp [show digitIn 8 'X' = none by decide])

theorem valueOfDigits_zero_cons (base : Nat) (digits : List Nat) :
    valueOfDigits base (0 :: digits) = valueOfDigits base digits := by
  simp only [valueOfDigits, List.foldl_cons, Nat.zero_mul, Nat.add_zero]

/-- A numeral is read to its end. -/
theorem Numeral.scanNumber_eq (h : Numeral text value) :
    scanNumber text = some (false, value, []) := by
  cases h with
  | @decimal c text digits hhead hdigits =>
      have hne : digits ≠ [] := by
        rintro rfl
        exact absurd (length_of_mapM hdigits) (by simp)
      have hc : 48 ≤ c.toNat := by
        rw [List.mapM_cons] at hdigits
        obtain ⟨d, hd, -⟩ := Option.bind_eq_some_iff.mp hdigits
        exact digitIn_bounds hd
      rw [scanNumber, takeSign_of_digit hc]
      simp only [detectBase_of_head_ne hhead, scanDigits_of_mapM hdigits, if_neg hne]
  | @octal text digits hdigits =>
      rw [scanNumber, takeSign_of_digit (by decide)]
      have hzero : digitIn 8 '0' = some 0 := by decide
      simp only [detectBase_of_octal hdigits, scanDigits_cons hzero, scanDigits_of_mapM hdigits,
        valueOfDigits_zero_cons, if_neg (List.cons_ne_nil _ _)]
  | @hexadecimal x text digits hx hne hdigits =>
      rcases text with _ | ⟨c, text⟩
      · exact absurd rfl hne
      · have hlength := length_of_mapM hdigits
        have hdigits' := hdigits
        rw [List.mapM_cons] at hdigits'
        obtain ⟨d, hd, -⟩ := Option.bind_eq_some_iff.mp hdigits'
        have hne' : digits ≠ [] := by
          rintro rfl
          exact absurd hlength (by simp)
        rw [scanNumber, takeSign_of_digit (by decide)]
        simp only [detectBase_of_hexadecimal hx (by rw [hd]; rfl), scanDigits_of_mapM hdigits,
          if_neg hne']

theorem Numeral.stoul_eq (h : Numeral text value) (hlt : value < 2 ^ 64) :
    stoul text = some value := by
  simp only [stoul, h.scanNumber_eq, if_neg (Nat.not_le.mpr hlt), Bool.false_eq_true, if_false]

/-- A text that is not read to its end is no numeral. -/
theorem not_numeral_of_scanNumber {negative : Bool} {magnitude : Nat} {rest : List Char}
    (h : scanNumber text = some (negative, magnitude, rest)) (hrest : negative = true ∨ rest ≠ [])
    (value : Nat) : ¬ Numeral text value := by
  intro hn
  have heq := hn.scanNumber_eq
  rw [h] at heq
  cases heq
  rcases hrest with hneg | hne
  · exact absurd hneg (by decide)
  · exact hne rfl

end Scan

end VhalCore
