import VhalCore.Models.AidlHeaders.Correctness.References

/-!
# What the expressions match

The lines of the forms are matched against the expressions of the script one by one. A comment
stays in the text that is matched, so that it decides between them.
-/

namespace VhalCore.AidlHeaders

variable {U : CharClasses} {name text : Text} {l : Layout U}
  {found rest : List (Text × Option Text)}

/-- The letters and digits of ASCII. -/
theorem isAlphanum_iff (c : Char) : c.isAlphanum = true ↔
    (65 ≤ c.toNat ∧ c.toNat ≤ 90 ∨ 97 ≤ c.toNat ∧ c.toNat ≤ 122) ∨
      48 ≤ c.toNat ∧ c.toNat ≤ 57 := by
  change ((decide ('A'.val ≤ c.val ∧ c.val ≤ 'Z'.val) ||
    (decide ('a'.val ≤ c.val) && decide (c.val ≤ 'z'.val))) ||
    (decide ('0'.val ≤ c.val) && decide (c.val ≤ '9'.val))) = true ↔ _
  simp only [Bool.or_eq_true, Bool.and_eq_true, decide_eq_true_eq, UInt32.le_iff_toNat_le]
  rfl

theorem isAlphanum_of_isUpper {c : Char} (h : c.isUpper = true) : c.isAlphanum = true := by
  change ((c.isUpper || c.isLower) || c.isDigit) = true
  rw [h]
  rfl

theorem isAlphanum_lt {c : Char} (h : c.isAlphanum = true) : c.toNat < 128 := by
  rw [isAlphanum_iff] at h
  omega

/-- A name consists of word characters. -/
theorem IsName.word (h : IsName name) : ∀ c ∈ name, U.isWord c = true := by
  intro c hc
  rcases h.chars c hc with ha | rfl
  · simp [U.word_ascii c (isAlphanum_lt ha), ha]
  · rw [U.word_ascii _ (by decide)]
    decide

/-- A word is no white space, slash, star or comma. -/
theorem word_lineChar {c : Char} (h : U.isWord c = true) :
    U.isSpace c = false ∧ c ≠ '/' ∧ c ≠ '*' ∧ c ≠ ',' := by
  have hstar : U.isWord '*' = false := by rw [U.word_ascii _ (by decide)]; decide
  refine ⟨U.disjoint c h, ?_, ?_, ?_⟩ <;> rintro rfl <;> simp [hstar] at h

/-- A text that begins and ends as lines do is the text of a line. -/
theorem IsLineText.append {a b : Text} (ha : a ≠ []) (hb : b ≠ [])
    (first : ∀ c ∈ a.head?, U.isSpace c = false ∧ c ≠ '/' ∧ c ≠ '*')
    (last : ∀ c ∈ b.getLast?, U.isSpace c = false ∧ c ≠ '/' ∧ c ≠ ',') :
    IsLineText U (a ++ b) where
  nonempty := by simp [ha]
  first := by simpa [List.head?_append_of_ne_nil _ ha] using first
  last := by simpa [List.getLast?_append_of_ne_nil _ hb] using last

theorem IsName.first_word (h : IsName name) :
    ∀ c ∈ name.head?, U.isSpace c = false ∧ c ≠ '/' ∧ c ≠ '*' := fun c hc =>
  have := word_lineChar (h.word (U := U) c (List.mem_of_mem_head? hc))
  ⟨this.1, this.2.1, this.2.2.1⟩

/-- A name is the text of a line. -/
theorem IsName.lineText (h : IsName name) : IsLineText U name where
  nonempty := h.nonempty
  first := h.first_word
  last c hc :=
    have := word_lineChar (h.word (U := U) c (List.mem_of_getLast? hc))
    ⟨this.1, this.2.1, this.2.2.2⟩

theorem IsExpression.last_comma (h : IsExpression U text) :
    ∀ c ∈ text.getLast?, U.isSpace c = false ∧ c ≠ '/' ∧ c ≠ ',' := fun c hc =>
  ⟨(h.last c hc).1, (h.last c hc).2, (h.chars c (List.mem_of_getLast? hc)).1⟩

theorem IsExpression.lineText (h : IsExpression U text) : IsLineText U text where
  nonempty := h.nonempty
  first := h.first
  last := h.last_comma

theorem IsExpression.beforeComment (h : IsExpression U text) : beforeComment text = none :=
  beforeComment_eq_none_iff.2 h.noComment.1

namespace Layout

theorem trailing_of_none (h : l.comment = none) : l.trailing = [] := by
  simp [trailing, h]

/-- A comment is left after the gaps and the comma. -/
theorem trailing_of_comment (h : l.comment ≠ none) :
    ∃ comment, l.trailing = l.between ++ '/' :: '/' :: comment := by
  obtain ⟨comment, hc⟩ := Option.ne_none_iff_exists'.1 h
  rw [trailing, hc]
  exact ⟨_, rfl⟩

theorem slash_mem_trailing (h : l.comment ≠ none) : '/' ∈ l.trailing := by
  obtain ⟨comment, hc⟩ := trailing_of_comment h
  simp [hc]

/-- What is left begins with no part of a word. -/
theorem trailing_head : ∀ c ∈ l.trailing.head?, U.isWord c = false := by
  by_cases h : l.comment = none
  · simp [trailing_of_none h]
  · obtain ⟨comment, hc⟩ := trailing_of_comment h
    have hblank : ∀ c ∈ l.between, U.isWord c = false := by
      intro c hm
      simp only [between, commaText, List.mem_append] at hm
      rcases hm with (hm | hm) | hm
      · exact U.not_word_of_space (blank_space _ c hm)
      · split_ifs at hm
        · simp [List.mem_singleton.1 hm]
        · simp at hm
      · exact U.not_word_of_space (blank_space _ c hm)
    intro c hm
    rw [hc] at hm
    rcases hb : l.between with _ | ⟨d, between⟩
    · rw [hb, List.nil_append, List.head?_cons, Option.mem_some_iff] at hm
      simp [← hm]
    · rw [hb, List.cons_append, List.head?_cons, Option.mem_some_iff] at hm
      exact hblank c (by simp [hb, hm])

/-- After the gap what is left begins with a comma or a slash. -/
theorem trailing_afterGap :
    ∀ c ∈ (l.trailing.dropWhile U.isSpace).head?, c = ',' ∨ c = '/' := by
  by_cases h : l.comment = none
  · simp [trailing_of_none h]
  · obtain ⟨comment, hc⟩ := trailing_of_comment h
    rw [hc, between, commaText, List.append_assoc, List.append_assoc,
      List.dropWhile_append_of_pos (blank_space _)]
    split_ifs
    · simp
    · rw [List.nil_append, dropWhile_append_of_head (blank_space _) (by simp)]
      simp

theorem between_noSlash : '/' ∉ l.between := by
  have hblank (b : Blank U) : '/' ∉ b.1 := fun hm => by simpa using blank_space b _ hm
  simp only [between, commaText, List.mem_append, hblank, or_false, false_or]
  split_ifs <;> simp

end Layout

section Matches

/-- A name with an equals sign behind it is matched as an assignment to that name. -/
theorem matchAssignment_name (h : IsName name) (gap : Blank U) (rest : Text) :
    matchAssignment U (name ++ (gap.1 ++ '=' :: rest)) = some (name, rest) := by
  have hhead : ∀ c ∈ (gap.1 ++ '=' :: rest).head?, U.isWord c = false := by
    rcases hg : gap.1 with _ | ⟨d, _⟩
    · simp
    · have := U.not_word_of_space (blank_space gap d (by simp [hg]))
      simpa using this
  rw [matchAssignment, dropWhile_append_of_head h.word hhead,
    takeWhile_append_of_head h.word hhead, dropWhile_append_of_head (blank_space gap) (by simp)]
  simp [h.nonempty]

/-- A name with a comment has no equals sign after it. -/
theorem matchAssignment_nameOnly (h : ∀ c ∈ name, U.isWord c = true) :
    matchAssignment U (name ++ l.trailing) = none := by
  rw [matchAssignment, dropWhile_append_of_head h l.trailing_head]
  have := l.trailing_afterGap
  cases hd : l.trailing.dropWhile U.isSpace with
  | nil => rfl
  | cons c rest =>
    rw [hd] at this
    rcases this c rfl with rfl | rfl <;> rfl

/-- A line that begins with a name continues no value. -/
theorem isContinuation_name (h : IsName name) (rest : Text) :
    isContinuation (name ++ rest) = false := by
  obtain ⟨c, tail, rfl⟩ := List.exists_cons_of_ne_nil h.nonempty
  have hc := h.chars c (by simp)
  have hplus : c ≠ '+' := by rintro rfl; simp [Char.isAlphanum] at hc
  have hbar : c ≠ '|' := by rintro rfl; simp [Char.isAlphanum] at hc
  simp [isContinuation, hplus, hbar]

/-- A text with a character that is neither in a constant nor white space is no constant. -/
theorem isConstantName_eq_false {c : Char} (hm : c ∈ text) (hc : isConstantChar c = false)
    (hs : U.isSpace c = false) : isConstantName U text = false := by
  cases text with
  | nil => rfl
  | cons d text =>
    rw [isConstantName]
    by_contra hne
    simp only [Bool.not_eq_false, Bool.and_eq_true, List.all_eq_true] at hne
    obtain ⟨hd, hall⟩ := hne
    rcases List.mem_cons.1 hm with rfl | hm
    · simp only [isUpperOrUnderscore, Bool.or_eq_true, decide_eq_true_eq] at hd
      simp only [isConstantChar, Bool.or_eq_false_iff, decide_eq_false_iff_not] at hc
      rcases hd with hd | hd
      · simp [hc.1.1] at hd
      · exact hc.2 hd
    · rw [← List.takeWhile_append_dropWhile (p := isConstantChar) (l := text),
        List.mem_append] at hm
      rcases hm with hm | hm
      · simp [List.mem_takeWhile_imp hm] at hc
      · simp [hall c hm] at hs

theorem isNameOnly_eq_false {c : Char} (hm : c ∈ text) (hc : U.isWord c = false) :
    isNameOnly U text = false := by
  simp only [isNameOnly, ne_eq, decide_not, Bool.and_eq_false_iff, List.all_eq_false]
  exact .inr ⟨c, hm, by simp [hc]⟩

theorem matchNameEquals_assignment {tail : Text} (hm : matchAssignment U text = some (name, tail))
    (ht : tail ≠ []) : matchNameEquals U text = none := by
  cases tail with
  | nil => exact absurd rfl ht
  | cons c tail => simp [matchNameEquals, hm]

end Matches

end VhalCore.AidlHeaders
