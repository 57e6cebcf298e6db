import VhalCore.Models.FakeHardware.Native.HexString

/-!
# Decoding hexadecimal strings

The loop of `parseHexString` takes two steps for each byte. So it accepts the texts of byte
strings, in which letters may be of either case, and returns the bytes they are written for.
-/

namespace VhalCore.FakeHardware

/-- The string of some bytes. -/
def hexString (bytes : List UInt8) : List UInt8 := hexPrefix ++ Hex.ofBytes bytes

/-- The prefix with an even number of digits in any case. -/
def IsHexString (s : List UInt8) : Prop :=
  ∃ digits, s = hexPrefix ++ digits ∧ Even digits.length ∧ ∀ c ∈ digits, Hex.IsDigit c

section Loop

variable {subs text bytes : List UInt8} {c d b : UInt8}

/-- The steps for a high digit and a low one. -/
theorem parseDigits_pair (h : Hex.byteOf? c d = some b) :
    parseDigits subs (c :: d :: text) true bytes = parseDigits subs text true (bytes ++ [b]) := by
  obtain ⟨v, hc, hrest⟩ := Option.bind_eq_some_iff.mp h
  obtain ⟨w, hd, rfl⟩ := Option.map_eq_some_iff.mp hrest
  have hlast : (bytes ++ [v * 16]).modify ((bytes ++ [v * 16]).length - 1) (· + w) =
      bytes ++ [v * 16 + w] := by
    rw [List.length_append, List.length_singleton, Nat.add_sub_cancel,
      List.modify_eq_take_cons_drop (by simp), List.take_left' rfl]
    simp
  simp only [parseDigits, hc, hd, if_true, Bool.not_true, Bool.false_eq_true, if_false,
    Bool.not_false, hlast]

/-- The steps for two characters that are not both digits. -/
theorem parseDigits_noPair (h : Hex.byteOf? c d = none) :
    ∃ error, parseDigits subs (c :: d :: text) true bytes = .error error := by
  cases hc : Hex.digitValue? c with
  | none => exact ⟨_, by rw [parseDigits, hc]⟩
  | some v =>
      have hd : Hex.digitValue? d = none := by
        rwa [Hex.byteOf?, hc, Option.bind_some, Option.map_eq_none_iff] at h
      refine ⟨.invalidCharacter d subs, ?_⟩
      simp only [parseDigits, hc, hd, if_true]

/-- From a high digit on, the loop reads the text of the bytes that it adds. -/
theorem parseDigits_eq_ok_iff (heven : Even text.length) {r : List UInt8} :
    parseDigits subs text true bytes = .ok r ↔
      ∃ more, r = bytes ++ more ∧ Hex.ofBytes more = text := by
  induction text using List.twoStepInduction generalizing bytes with
  | nil =>
      rw [parseDigits, Except.ok.injEq, eq_comm]
      constructor
      · rintro rfl
        exact ⟨[], (List.append_nil _).symm, rfl⟩
      · rintro ⟨more, rfl, hmore⟩
        rw [Hex.ofBytes_eq_nil_iff.mp hmore, List.append_nil]
  | singleton c => exact absurd heven (by simp)
  | cons_cons c d text ih =>
      have hrest : Even text.length := by
        simpa only [List.length_cons, Nat.even_add_one, not_not] using heven
      simp only [Hex.ofBytes_eq_cons_cons_iff]
      cases hb : Hex.byteOf? c d with
      | none =>
          obtain ⟨error, herror⟩ := @parseDigits_noPair subs text bytes c d hb
          rw [herror]
          simp
      | some b =>
          rw [parseDigits_pair hb, ih hrest]
          constructor
          · rintro ⟨more, rfl, rfl⟩
            exact ⟨b :: more, (List.append_cons ..).symm, b, more, rfl, rfl, rfl⟩
          · rintro ⟨_, rfl, b', more, rfl, hb', rfl⟩
            cases hb'
            exact ⟨more, List.append_cons .., rfl⟩

end Loop

section Strings

variable {s digits r : List UInt8}

/-- A text with the prefix and an even number of digits is read digit by digit. -/
theorem parseHexString_append (heven : Even digits.length) :
    parseHexString (hexPrefix ++ digits) =
      parseDigits (digits.map Hex.toLowerAscii) (digits.map Hex.toLowerAscii) true [] := by
  have hsize : (hexPrefix ++ digits).length % 2 = 0 :=
    Nat.even_iff.mp (List.length_append ▸ (show Even hexPrefix.length by decide).add heven)
  rw [parseHexString, if_neg (not_not.mpr hsize), if_neg (by simp)]
  rfl

/-- A text that is read has the prefix and an even number of digits. -/
theorem append_of_parseHexString (h : parseHexString s = .ok r) :
    ∃ digits, s = hexPrefix ++ digits ∧ Even digits.length := by
  rw [parseHexString] at h
  split_ifs at h with hsize hstarts
  obtain ⟨digits, rfl⟩ : hexPrefix <+: s := by simpa using hstarts
  refine ⟨digits, rfl, ?_⟩
  rw [not_not, List.length_append, hexPrefix] at hsize
  rw [Nat.even_iff]
  simpa using hsize

/-- The strings that are accepted are those of the returned bytes up to the case of letters. -/
theorem parseHexString_eq_ok_iff :
    parseHexString s = .ok r ↔
      ∃ digits, s = hexPrefix ++ digits ∧ digits.map Hex.toLowerAscii = Hex.ofBytes r := by
  have hloop {digits : List UInt8} (heven : Even digits.length) :
      parseHexString (hexPrefix ++ digits) = .ok r ↔
        Hex.ofBytes r = digits.map Hex.toLowerAscii := by
    rw [parseHexString_append heven, parseDigits_eq_ok_iff (by rwa [List.length_map])]
    simp only [List.nil_append, exists_eq_left']
  constructor
  · intro h
    obtain ⟨digits, rfl, heven⟩ := append_of_parseHexString h
    exact ⟨digits, rfl, ((hloop heven).mp h).symm⟩
  · rintro ⟨digits, rfl, hdigits⟩
    have heven : Even digits.length := by
      have hlength := congrArg List.length hdigits
      rw [List.length_map, Hex.length_ofBytes] at hlength
      rw [hlength]
      exact even_two_mul _
    exact (hloop heven).mpr hdigits.symm

theorem hexString_of_parseHexString (h : parseHexString s = .ok r) :
    hexString r = s.map Hex.toLowerAscii := by
  obtain ⟨digits, rfl, hdigits⟩ := parseHexString_eq_ok_iff.mp h
  rw [hexString, List.map_append, hdigits]
  rfl

/-- A text is read exactly if it is a hexadecimal string. -/
theorem exists_parseHexString_iff : (∃ r, parseHexString s = .ok r) ↔ IsHexString s := by
  have hdigits (digits : List UInt8) :
      (∃ r, Hex.ofBytes r = digits.map Hex.toLowerAscii) ↔
        Even digits.length ∧ ∀ c ∈ digits, Hex.IsDigit c := by
    rw [Hex.exists_ofBytes_eq_iff, List.length_map, List.forall_mem_map]
    simp only [Hex.isSome_digitValue?_toLowerAscii]
  simp only [parseHexString_eq_ok_iff, IsHexString, ← hdigits]
  constructor
  · rintro ⟨r, digits, hs, hr⟩
    exact ⟨digits, hs, r, hr.symm⟩
  · rintro ⟨digits, hs, r, hr⟩
    exact ⟨r, digits, hs, hr.symm⟩

end Strings

/-- A string is accepted if and only if it is the prefix with an even number of digits in any case.
The bytes that are returned are written as the string is in lower case, and every byte sequence is
returned for the string that it is written as. -/
theorem parseHexString_decodes :
    (∀ s, (∃ r, parseHexString s = .ok r) ↔ IsHexString s) ∧
      (∀ s r, parseHexString s = .ok r → hexString r = s.map Hex.toLowerAscii) ∧
      ∀ bytes, parseHexString (hexString bytes) = .ok bytes :=
  ⟨fun _ => exists_parseHexString_iff, fun _ _ => hexString_of_parseHexString, fun bytes =>
    parseHexString_eq_ok_iff.mpr ⟨Hex.ofBytes bytes, rfl, Hex.map_toLowerAscii_ofBytes bytes⟩⟩

section Example

/-- `0xA0fF` -/
example : parseHexString [48, 120, 65, 48, 102, 70] = .ok [0xa0, 0xff] := by
  decide

end Example

end VhalCore.FakeHardware
