import VhalCore.Models.AidlHeaders.Correctness.EnumForms

/-!
# What the lines of an enumerator do

A line either finds an enumerator, whose name is the word that the line begins with, or at most
changes the value of the last one. What the lines of each form do with supported and with other
comments is said line by line.
-/

namespace VhalCore.AidlHeaders

variable {U : CharClasses} {name text value : Text} {l : Layout U}
  {found found' : List (Text × Option Text)}

/-- At most the value of the last enumerator has changed. -/
def Touched (found found' : List (Text × Option Text)) : Prop :=
  found'.tail = found.tail ∧ found'.map Prod.fst = found.map Prod.fst

namespace Touched

theorem refl (found : List (Text × Option Text)) : Touched found found := ⟨rfl, rfl⟩

theorem trans {found'' : List (Text × Option Text)} (h : Touched found found')
    (h' : Touched found' found'') : Touched found found'' :=
  ⟨h'.1.trans h.1, h'.2.trans h.2⟩

theorem cons (name : Text) (value value' : Option Text) (rest : List (Text × Option Text)) :
    Touched ((name, value) :: rest) ((name, value') :: rest) := ⟨rfl, rfl⟩

theorem length (h : Touched found found') : found'.length = found.length := by
  simpa using congrArg List.length h.2

end Touched

/-- The name of an assignment is the word that the text begins with. -/
theorem matchAssignment_word {tail : Text} (h : matchAssignment U text = some (name, tail)) :
    name = text.takeWhile U.isWord := by
  unfold matchAssignment at h
  split at h
  · split_ifs at h
    simp only [Option.some.injEq, Prod.mk.injEq] at h
    exact h.1.symm
  · simp at h

/-- The name before a value is the word that the text begins with. -/
theorem matchNameValue_word {groups : Text × Text} (h : matchNameValue U text = some groups) :
    groups.1 = text.takeWhile U.isWord := by
  unfold matchNameValue at h
  cases ha : matchAssignment U text with
  | none => simp [ha] at h
  | some assignment =>
    simp only [ha] at h
    split_ifs at h
    rw [Option.some.injEq] at h
    rw [← h]
    exact matchAssignment_word ha

/-- The name before an equals sign is the word that the text begins with. -/
theorem matchNameEquals_word (h : matchNameEquals U text = some name) :
    name = text.takeWhile U.isWord := by
  unfold matchNameEquals at h
  split at h
  · rename_i n ha
    rw [Option.some.injEq] at h
    exact h.symm.trans (matchAssignment_word ha)
  · simp at h

/-- A line adds nothing, or the word that it begins with. -/
theorem absorbNameOnly_cases (text : Text) (found : List (Text × Option Text)) :
    absorbNameOnly U text found = found ∨
      absorbNameOnly U text found = (text.takeWhile U.isWord, none) :: found := by
  unfold absorbNameOnly
  split_ifs with h
  · right
    rw [isNameOnly, Bool.and_eq_true, List.all_eq_true] at h
    rw [List.takeWhile_eq_self_iff.2 h.2]
  · exact .inl rfl

/-- A line changes at most the last value, or finds an enumerator. -/
theorem absorb_cases (text : Text) (found : List (Text × Option Text)) :
    Touched found (absorb U text found) ∨
      ∃ value, absorb U text found = (text.takeWhile U.isWord, value) :: found := by
  have hname := absorbNameOnly_cases (U := U) text found
  have hnameOnly : Touched found (absorbNameOnly U text found) ∨
      ∃ value, absorbNameOnly U text found = (text.takeWhile U.isWord, value) :: found :=
    hname.imp (fun h => by rw [h]; exact .refl found) fun h => ⟨none, h⟩
  unfold absorb
  split
  · rename_i n v hm
    exact .inr ⟨_, by rw [← matchNameValue_word hm]⟩
  · split
    · rename_i n hm
      exact .inr ⟨_, by rw [matchNameEquals_word hm]⟩
    · split
      · split_ifs
        · exact hnameOnly
        · exact .inl (.cons ..)
      · split_ifs
        · exact .inl (.cons ..)
        · exact hnameOnly
      · exact hnameOnly

/-- A line that no expression matches changes at most the last value. -/
theorem absorb_touched (hv : matchNameValue U text = none) (he : matchNameEquals U text = none)
    (hn : isNameOnly U text = false) (found : List (Text × Option Text)) :
    Touched found (absorb U text found) := by
  have hname : absorbNameOnly U text found = found := by simp [absorbNameOnly, hn]
  unfold absorb
  rw [hv, he]
  rcases found with _ | ⟨⟨n, _ | v⟩, rest⟩
  · rw [hname]
    exact .refl _
  · dsimp only
    split_ifs
    · rw [hname]
      exact .refl _
    · exact .cons ..
  · dsimp only
    split_ifs
    · exact .cons ..
    · rw [hname]
      exact .refl _

/-- A value that declares nothing, though it begins with a name, is not matched as an enumerator
of the name. -/
theorem matchAssignment_undeclared (hv : IsExpression U value)
    (hn : value.takeWhile U.isWord = name) (hd : ¬Declares U name value) (tail : Text) :
    matchAssignment U (value ++ tail) = none ∧ isNameOnly U (value ++ tail) = false := by
  have hsplit := List.takeWhile_append_dropWhile (p := U.isWord) (l := value)
  rw [hn] at hsplit
  have hrest : value.dropWhile U.isWord ≠ [] := by
    intro hnil
    rw [hnil, List.append_nil] at hsplit
    exact hd (Or.inl hsplit.symm)
  have hafter : (value.dropWhile U.isWord).dropWhile U.isSpace ≠ [] := by
    intro hnil
    obtain ⟨c, hc⟩ := Option.isSome_iff_exists.1 (List.getLast?_isSome.2 hrest)
    have hlast : c ∈ value.getLast? := by
      rw [← hsplit, List.getLast?_append_of_ne_nil _ hrest]
      exact hc
    have hspace := List.dropWhile_eq_nil_iff.1 hnil c (List.mem_of_getLast? hc)
    rw [(hv.last c hlast).1] at hspace
    cases hspace
  constructor
  · have hequals : ∀ rest, (value.dropWhile U.isWord).dropWhile U.isSpace ≠ '=' :: rest := by
      intro rest heq
      refine hd (Or.inr ⟨⟨(value.dropWhile U.isWord).takeWhile U.isSpace, fun c hc =>
        ⟨List.mem_takeWhile_imp hc, (hv.chars c ?_).2⟩⟩, rest, ?_⟩)
      · exact List.dropWhile_sublist _ |>.subset (List.takeWhile_subset _ hc)
      · rw [← heq, List.takeWhile_append_dropWhile]
        exact hsplit.symm
    rw [matchAssignment, List.dropWhile_append, if_neg (by simpa using hrest),
      List.dropWhile_append, if_neg (by simpa using hafter)]
    cases hshape : (value.dropWhile U.isWord).dropWhile U.isSpace with
    | nil => exact absurd hshape hafter
    | cons c rest =>
      rw [List.cons_append]
      split
      · rename_i heq
        rw [List.cons.injEq] at heq
        exact absurd (heq.1 ▸ hshape) (hequals rest)
      · rfl
  · rw [isNameOnly, Bool.and_eq_false_iff]
    right
    rw [List.all_eq_false]
    cases hshape : value.dropWhile U.isWord with
    | nil => exact absurd hshape hrest
    | cons c rest =>
      refine ⟨c, ?_, ?_⟩
      · rw [← hsplit, hshape]
        simp
      · have hhead := List.head?_dropWhile_not U.isWord value
        rw [hshape] at hhead
        simpa using hhead

section Name

theorem matches_of_noAssignment (h : matchAssignment U text = none) :
    matchNameValue U text = none ∧ matchNameEquals U text = none := by
  simp [matchNameValue, matchNameEquals, h]

/-- Such a value changes at most the value of the last enumerator. -/
theorem absorb_undeclared (hv : IsExpression U value) (hn : value.takeWhile U.isWord = name)
    (hd : ¬Declares U name value) (tail : Text) (found : List (Text × Option Text)) :
    Touched found (absorb U (value ++ tail) found) := by
  obtain ⟨hnone, hname⟩ := matchAssignment_undeclared hv hn hd tail
  obtain ⟨hvalue, hequals⟩ := matches_of_noAssignment hnone
  exact absorb_touched hvalue hequals hname found

theorem matches_name (h : IsName name) :
    matchNameValue U name = none ∧ matchNameEquals U name = none := by
  have := matchAssignment_nameOnly (l := ⟨⟨[], by simp⟩, ⟨[], by simp⟩, false, ⟨[], by simp⟩, none⟩)
    (h.word (U := U))
  exact matches_of_noAssignment (by simpa [Layout.trailing] using this)

/-- A name alone is found, unless the enumerator before it waits for its value. -/
theorem absorb_name (h : IsName name)
    (hf : ∀ n ∈ found.head?, n.2 = none → isConstantName U name = true) :
    absorb U name found = (name, none) :: found := by
  have hname : absorbNameOnly U name found = (name, none) :: found := by
    simpa [absorbNameOnly, isNameOnly, h.nonempty] using h.word (U := U)
  unfold absorb
  rw [(matches_name h).1, (matches_name h).2]
  rcases found with _ | ⟨⟨n, _ | v⟩, rest⟩
  · exact hname
  · simpa [hf (n, none) rfl rfl] using hname
  · have := isContinuation_name h []
    rw [List.append_nil] at this
    simpa [this] using hname

/-- It is taken as this value otherwise. -/
theorem absorb_name_swallowed (h : IsName name) (hc : isConstantName U name = false)
    (n : Text) (rest : List (Text × Option Text)) :
    Touched ((n, none) :: rest) (absorb U name ((n, none) :: rest)) := by
  simp only [absorb, (matches_name h).1, (matches_name h).2, hc]
  exact .cons ..

/-- A name with a comment is not found. -/
theorem absorb_name_comment (h : IsName name) (hl : l.comment ≠ none)
    (found : List (Text × Option Text)) : Touched found (absorb U (name ++ l.trailing) found) := by
  obtain ⟨hv, he⟩ := matches_of_noAssignment (matchAssignment_nameOnly (l := l) h.word)
  refine absorb_touched hv he (isNameOnly_eq_false (c := '/') ?_ (by simp)) found
  simp [Layout.slash_mem_trailing hl]

end Name

section Value

variable {beforeEquals afterEquals : Blank U}

/-- Blanks may stand in a value. -/
theorem blank_valueChar (b : Blank U) : ∀ c ∈ b.1, isValueChar c = true := by
  intro c hc
  obtain ⟨hs, hn⟩ := b.2 c hc
  have hcomma : c ≠ ',' := by rintro rfl; simp at hs
  have hslash : c ≠ '/' := by rintro rfl; simp at hs
  simp [isValueChar, hcomma, hslash, hn]

theorem IsExpression.valueChar (h : IsExpression U value) {c : Char} (hc : c ∈ value)
    (hslash : c ≠ '/') : isValueChar c = true := by
  have := h.chars c hc
  simp [isValueChar, this.1, this.2, hslash]

/-- The text of a value and the gaps around it. -/
theorem strip_value (h : IsExpression U value) (b : Blank U) {gap : Text}
    (hgap : ∀ c ∈ gap, U.isSpace c = true) : strip U (b.1 ++ (value ++ gap)) = value := by
  obtain ⟨c, rest, hv⟩ := List.exists_cons_of_ne_nil h.nonempty
  have hfirst : ∀ x ∈ (value ++ gap).head?, U.isSpace x = false := by
    rw [List.head?_append_of_ne_nil _ h.nonempty]
    exact fun x hx => (h.first x hx).1
  rw [strip, dropWhile_append_of_head (blank_space b) hfirst, rdropWhile_append_of_all hgap,
    rdropWhile_of_last fun x hx => (h.last x hx).1]

/-- The gaps without a comma are white space. -/
theorem between_space (hc : l.comma = false) : ∀ c ∈ l.between, U.isSpace c = true := by
  intro c hm
  simp only [Layout.between, Layout.commaText, hc, Bool.false_eq_true, if_false, List.append_nil,
    List.mem_append] at hm
  exact hm.elim (blank_space _ c) (blank_space _ c)

theorem between_valueChar (hc : l.comma = false) : ∀ c ∈ l.between, isValueChar c = true := by
  intro c hm
  simp only [Layout.between, Layout.commaText, hc, Bool.false_eq_true, if_false, List.append_nil,
    List.mem_append] at hm
  exact hm.elim (blank_valueChar _ c) (blank_valueChar _ c)

/-- What is matched after the equals sign. -/
theorem matchNameValue_split {rest : Text} (taken tail : Text)
    (hm : matchAssignment U text = some (name, rest)) (hrest : rest = taken ++ tail)
    (htaken : ∀ c ∈ taken, isValueChar c = true)
    (htail : ∀ c ∈ tail.head?, isValueChar c = false) :
    matchNameValue U text = if taken ≠ [] ∧ (tail = [] ∨ ['/', '/'] <+: tail) then
      some (name, strip U taken) else none := by
  simp only [matchNameValue, hm, hrest, takeWhile_append_of_head htaken htail,
    dropWhile_append_of_head htaken htail]

/-- A name, an equals sign and an expression without a slash match, unless a comma and a comment
follow. -/
theorem matchNameValue_value (h : IsName name) (hv : IsExpression U value) (hslash : '/' ∉ value)
    (hl : l.comment = none ∨ l.comma = false) :
    matchNameValue U (name ++ (beforeEquals.1 ++ '=' :: (afterEquals.1 ++ value)) ++ l.trailing) =
      some (name, value) := by
  have hvalue : ∀ c ∈ value, isValueChar c = true := fun c hc =>
    hv.valueChar hc fun he => hslash (he ▸ hc)
  have hassign := matchAssignment_name h beforeEquals (afterEquals.1 ++ value ++ l.trailing)
  have htext : name ++ (beforeEquals.1 ++ '=' :: (afterEquals.1 ++ value)) ++ l.trailing =
      name ++ (beforeEquals.1 ++ '=' :: (afterEquals.1 ++ value ++ l.trailing)) := by simp
  rw [htext]
  by_cases hn : l.comment = none
  · rw [matchNameValue_split (afterEquals.1 ++ value) [] hassign
      (by rw [Layout.trailing_of_none hn]) (by
        intro c hm
        exact (List.mem_append.1 hm).elim (blank_valueChar _ c) (hvalue c)) (by simp)]
    have := strip_value hv afterEquals (List.forall_mem_nil _)
    rw [List.append_nil] at this
    simp [hv.nonempty, this]
  · obtain ⟨comment, hc⟩ := Layout.trailing_of_comment hn
    have hcomma := hl.resolve_left hn
    rw [matchNameValue_split (afterEquals.1 ++ (value ++ l.between))
      ('/' :: '/' :: comment) hassign (by simp [hc]) (by
        intro c hm
        rcases List.mem_append.1 hm with hm | hm
        · exact blank_valueChar _ c hm
        · exact (List.mem_append.1 hm).elim (hvalue c) (between_valueChar hcomma c))
      (by simp [isValueChar])]
    simp [hv.nonempty, strip_value hv afterEquals (between_space hcomma)]

/-- A slash in the value or a comma before the comment: the line is not matched. -/
theorem matchNameValue_other (h : IsName name) (hv : IsExpression U value)
    (hother : '/' ∈ value ∨ l.comment ≠ none ∧ l.comma = true) :
    matchNameValue U (name ++ (beforeEquals.1 ++ '=' :: (afterEquals.1 ++ value)) ++ l.trailing) =
      none := by
  have hassign := matchAssignment_name h beforeEquals (afterEquals.1 ++ value ++ l.trailing)
  have htext : name ++ (beforeEquals.1 ++ '=' :: (afterEquals.1 ++ value)) ++ l.trailing =
      name ++ (beforeEquals.1 ++ '=' :: (afterEquals.1 ++ value ++ l.trailing)) := by simp
  rw [htext]
  by_cases hslash : '/' ∈ value
  · obtain ⟨v, w, rfl, hnot⟩ := List.eq_append_cons_of_mem hslash
    rw [matchNameValue_split (afterEquals.1 ++ v) ('/' :: (w ++ l.trailing))
      hassign (by simp) (by
        intro c hm
        rcases List.mem_append.1 hm with hm | hm
        · exact blank_valueChar _ c hm
        · exact hv.valueChar (by simp [hm]) fun he => hnot (he ▸ hm)) (by simp [isValueChar])]
    refine if_neg ?_
    rintro ⟨-, htail | htail⟩
    · simp at htail
    · cases w with
      | nil => simpa using (hv.last '/' (by simp)).2
      | cons c w =>
        have hc : '/' = c := by simpa using htail
        exact hv.noComment.1 ⟨v, w, by simpa using hc⟩
  · obtain ⟨hn, hcomma⟩ := hother.resolve_left hslash
    obtain ⟨comment, hc⟩ := Layout.trailing_of_comment hn
    rw [matchNameValue_split (afterEquals.1 ++ (value ++ l.gap.1))
      (',' :: (l.gapAfterComma.1 ++ '/' :: '/' :: comment)) hassign
      (by simp [hc, Layout.between, Layout.commaText, hcomma]) (by
        intro c hm
        rcases List.mem_append.1 hm with hm | hm
        · exact blank_valueChar _ c hm
        · exact (List.mem_append.1 hm).elim
            (fun hm => hv.valueChar hm fun he => hslash (he ▸ hm)) (blank_valueChar _ c))
      (by simp [isValueChar])]
    simp

/-- A value on the line of its name. -/
theorem absorb_value (h : IsName name) (hv : IsExpression U value) (hslash : '/' ∉ value)
    (hl : l.comment = none ∨ l.comma = false) (found : List (Text × Option Text)) :
    absorb U (name ++ (beforeEquals.1 ++ '=' :: (afterEquals.1 ++ value)) ++ l.trailing) found =
      (name, some (rewriteReferences U value)) :: found := by
  simp only [absorb, matchNameValue_value h hv hslash hl]

/-- A value with a slash, or with a comma and a comment behind it, adds no enumerator. -/
theorem absorb_value_other (h : IsName name) (hv : IsExpression U value)
    (hother : '/' ∈ value ∨ l.comment ≠ none ∧ l.comma = true)
    (found : List (Text × Option Text)) :
    Touched found
      (absorb U (name ++ (beforeEquals.1 ++ '=' :: (afterEquals.1 ++ value)) ++ l.trailing)
        found) := by
  have hassign := matchAssignment_name h beforeEquals (afterEquals.1 ++ value ++ l.trailing)
  refine absorb_touched (matchNameValue_other h hv hother) ?_
    (isNameOnly_eq_false (c := '=') (by simp) (by simp)) found
  exact matchNameEquals_assignment (by simpa using hassign) (by simp [hv.nonempty])

/-- A name whose value is on the next line. -/
theorem absorb_head (h : IsName name) (found : List (Text × Option Text)) :
    absorb U (name ++ (beforeEquals.1 ++ ['='])) found = (name, none) :: found := by
  have hassign := matchAssignment_name h beforeEquals []
  have hvalue : matchNameValue U (name ++ (beforeEquals.1 ++ ['='])) = none := by
    simp [matchNameValue, hassign]
  simp only [absorb, hvalue, matchNameEquals, hassign]

/-- With a comment after the equals sign the name is found with an empty value, or not at all. -/
theorem absorb_head_comment (h : IsName name) (beforeEquals : Blank U) (hl : l.comment ≠ none)
    (hc : l.comma = false) (found : List (Text × Option Text)) :
    absorb U (name ++ (beforeEquals.1 ++ ['=']) ++ l.trailing) found = (name, some []) :: found ∨
      Touched found (absorb U (name ++ (beforeEquals.1 ++ ['=']) ++ l.trailing) found) := by
  obtain ⟨comment, htrailing⟩ := Layout.trailing_of_comment hl
  have hassign : matchAssignment U (name ++ (beforeEquals.1 ++ ['=']) ++ l.trailing) =
      some (name, l.between ++ '/' :: '/' :: comment) := by
    simpa [htrailing] using matchAssignment_name h beforeEquals l.trailing
  have hmatch := matchNameValue_split _ _ hassign rfl (between_valueChar hc) (by simp [isValueChar])
  by_cases hb : l.between = []
  · right
    refine absorb_touched (by rw [hmatch, if_neg (by simp [hb])]) ?_
      (isNameOnly_eq_false (c := '=') (by simp) (by simp)) found
    exact matchNameEquals_assignment hassign (by simp)
  · left
    have hstrip : strip U l.between = [] := by
      rw [strip, List.dropWhile_eq_nil_iff.2 (between_space hc), List.rdropWhile_nil]
    rw [if_pos (by simp [hb]), hstrip] at hmatch
    simp only [absorb, hmatch]
    rfl

end Value

section NextLine

variable {n : Text} {rest : List (Text × Option Text)}

theorem stripComma_text (h : IsLineText U text) : stripComma U text = text := by
  have := stripComma_append (U := U) (b := []) h.nonempty (fun c hc => (h.first c hc).1)
    fun c hc => ⟨(h.last c hc).1, (h.last c hc).2.2⟩
  simpa using this

/-- A comment is still there when the commas are removed. -/
theorem stripComma_comment (h : IsLineText U text) (hl : l.comment ≠ none) :
    beforeComment (stripComma U (text ++ l.trailing)) ≠ none := by
  obtain ⟨comment, hc⟩ := Layout.trailing_of_comment hl
  have htext : text ++ l.trailing = (text ++ (l.between ++ ['/', '/'])) ++ comment := by simp [hc]
  rw [htext, stripComma_append (by simp) (by
    rw [List.head?_append_of_ne_nil _ h.nonempty]
    exact fun c hc => (h.first c hc).1) (by simp), Ne, beforeComment_eq_none_iff, not_not]
  rw [← List.append_assoc text]
  exact ⟨text ++ l.between, _, rfl⟩

/-- A value on the next line. -/
theorem absorb_nextValue (hv : IsExpression U value) (hc : isConstantName U value = false)
    (hm : matchNameValue U value = none) (he : matchNameEquals U value = none) :
    absorb U value ((n, none) :: rest) = (n, some (rewriteReferences U value)) :: rest := by
  simp [absorb, hm, he, hc, stripComma_text hv.lineText]

/-- A constant is a word. -/
theorem isNameOnly_of_constant (h : IsLineText U text) (hc : isConstantName U text = true) :
    isNameOnly U text = true := by
  obtain ⟨c, tail, rfl⟩ := List.exists_cons_of_ne_nil h.nonempty
  rw [isConstantName, Bool.and_eq_true, List.all_eq_true] at hc
  have hword : ∀ d, isConstantChar d = true → U.isWord d = true := by
    intro d hd
    simp only [isConstantChar, Bool.or_eq_true, decide_eq_true_eq] at hd
    rcases hd with (hd | hd) | rfl
    · have : d.isAlphanum = true := isAlphanum_of_isUpper hd
      simp [U.word_ascii d (isAlphanum_lt this), this]
    · have : d.isAlphanum = true := by simp [Char.isAlphanum, hd]
      simp [U.word_ascii d (isAlphanum_lt this), this]
    · rw [U.word_ascii _ (by decide)]
      decide
  have hfirst : isConstantChar c = true := by
    have := hc.1
    simp only [isUpperOrUnderscore, isConstantChar, Bool.or_eq_true] at this ⊢
    exact this.imp .inl id
  have hdrop : tail.dropWhile isConstantChar = [] := by
    by_contra hne
    obtain ⟨front, hfront⟩ := List.dropWhile_suffix (l := tail) isConstantChar
    obtain ⟨d, hd⟩ := Option.ne_none_iff_exists'.1 (mt List.getLast?_eq_none_iff.1 hne)
    have hlast : d ∈ (c :: tail).getLast? := by
      rw [← hfront, ← List.cons_append, List.getLast?_append_of_ne_nil _ hne]
      exact hd
    simpa [(h.last d hlast).1] using hc.2 d (List.mem_of_getLast? hd)
  simp only [isNameOnly, ne_eq, reduceCtorEq, not_false_eq_true, decide_true, Bool.true_and,
    List.all_eq_true]
  intro d hd
  rcases List.mem_cons.1 hd with rfl | hd
  · exact hword _ hfirst
  · exact hword d (List.dropWhile_eq_nil_iff.1 hdrop d hd)

/-- Any other value is found as an enumerator of its own, or is taken with its comment. -/
theorem absorb_nextValue_other (n : Text) (rest : List (Text × Option Text))
    (hv : IsExpression U value)
    (hother : ¬(l.comment = none ∧ isConstantName U value = false ∧
      matchNameValue U value = none ∧ matchNameEquals U value = none)) :
    (∃ o, absorb U (value ++ l.trailing) ((n, none) :: rest) =
      (value.takeWhile U.isWord, o) :: (n, none) :: rest) ∨
    ∃ t, beforeComment t ≠ none ∧
      absorb U (value ++ l.trailing) ((n, none) :: rest) = (n, some t) :: rest := by
  have hword := takeWhile_append_left (a := value) l.trailing_head
  cases hm : matchNameValue U (value ++ l.trailing) with
  | some groups =>
    refine .inl ⟨some (rewriteReferences U groups.2), ?_⟩
    rw [← hword, ← matchNameValue_word hm]
    simp [absorb, hm]
  | none =>
    cases he : matchNameEquals U (value ++ l.trailing) with
    | some m =>
      refine .inl ⟨none, ?_⟩
      rw [← hword, ← matchNameEquals_word he]
      simp [absorb, hm, he]
    | none =>
      by_cases hl : l.comment = none
      · rw [Layout.trailing_of_none hl, List.append_nil] at hm he ⊢
        have hc : isConstantName U value = true := by
          by_contra hc
          exact hother ⟨hl, by simpa using hc, hm, he⟩
        have hname := isNameOnly_of_constant hv.lineText hc
        refine .inl ⟨none, ?_⟩
        have htake : value.takeWhile U.isWord = value := by
          rw [isNameOnly, Bool.and_eq_true, List.all_eq_true] at hname
          exact List.takeWhile_eq_self_iff.2 hname.2
        simp [absorb, hm, he, hc, absorbNameOnly, hname, htake]
      · have hc : isConstantName U (value ++ l.trailing) = false :=
          isConstantName_eq_false (c := '/') (by simp [Layout.slash_mem_trailing hl])
            (by decide) (by simp)
        refine .inr ⟨rewriteReferences U (stripComma U (value ++ l.trailing)), ?_, ?_⟩
        · exact mt rewriteReferences_noComment.1 (stripComma_comment hv.lineText hl)
        · simp [absorb, hm, he, hc]

/-- After an empty value nothing is taken without a space before it. -/
theorem absorb_afterEmpty (n text : Text) (rest : List (Text × Option Text)) :
    (∃ o, absorb U text ((n, some []) :: rest) =
      (text.takeWhile U.isWord, o) :: (n, some []) :: rest) ∨
    absorb U text ((n, some []) :: rest) = (n, some []) :: rest ∨
    ∃ t, absorb U text ((n, some []) :: rest) = (n, some (' ' :: t)) :: rest := by
  cases hm : matchNameValue U text with
  | some groups =>
    refine .inl ⟨some (rewriteReferences U groups.2), ?_⟩
    rw [← matchNameValue_word hm]
    simp [absorb, hm]
  | none =>
    cases he : matchNameEquals U text with
    | some m =>
      refine .inl ⟨none, ?_⟩
      rw [← matchNameEquals_word he]
      simp [absorb, hm, he]
    | none =>
      cases hc : isContinuation text with
      | true =>
        refine .inr (.inr ⟨rewriteReferences U (stripComma U (removeComment U text)), ?_⟩)
        simp only [absorb, hm, he, hc, if_true, List.nil_append]
      | false =>
        rcases absorbNameOnly_cases (U := U) text ((n, some []) :: rest) with h | h
        · exact .inr (.inl (by simp [absorb, hm, he, hc, h]))
        · exact .inl ⟨none, by simp [absorb, hm, he, hc, h]⟩

end NextLine

section Continuations

variable {n v : Text} {rest : List (Text × Option Text)} (m : Continuation U)

/-- A continuation begins with an operator. -/
theorem Continuation.head (m : Continuation U) :
    ∃ c tail, m.text = c :: tail ∧ (c = '+' ∨ c = '|') := by
  obtain ⟨c, tail, ht⟩ := List.exists_cons_of_ne_nil m.isExpression.nonempty
  have := m.operator
  rw [ht] at this
  exact ⟨c, tail, ht, by simpa [isContinuation] using this⟩

/-- A continuation is no assignment. -/
theorem Continuation.matches (tail : Text) :
    matchNameValue U (m.text ++ tail) = none ∧ matchNameEquals U (m.text ++ tail) = none := by
  obtain ⟨c, rest, ht, hc⟩ := m.head
  refine matches_of_noAssignment ?_
  have hword : (m.text ++ tail).takeWhile U.isWord = [] := by
    refine takeWhile_of_head ?_
    rcases hc with rfl | rfl <;> simp [ht]
  unfold matchAssignment
  split
  · rw [if_pos hword]
  · rfl

theorem Continuation.isConstantName (tail : Text) :
    isConstantName U (m.text ++ tail) = false := by
  obtain ⟨c, rest, ht, rfl | rfl⟩ := m.head <;>
    simp +decide [ht, AidlHeaders.isConstantName, isUpperOrUnderscore]

theorem Continuation.isContinuation (tail : Text) :
    isContinuation (m.text ++ tail) = true := by
  obtain ⟨c, rest, ht, rfl | rfl⟩ := m.head <;> simp [ht, AidlHeaders.isContinuation]

/-- The comment of a line is removed. -/
theorem removeComment_trailing (h : IsExpression U text) :
    stripComma U (removeComment U (text ++ l.trailing)) = text := by
  by_cases hl : l.comment = none
  · rw [Layout.trailing_of_none hl, List.append_nil, removeComment, h.beforeComment]
    exact stripComma_text h.lineText
  · obtain ⟨comment, hc⟩ := Layout.trailing_of_comment hl
    have hnone : beforeComment (text ++ l.between) = none := by
      have hslash : text.getLast? ≠ some '/' := fun he => (h.last '/' he).2 rfl
      rw [beforeComment_append_eq_none fun he => absurd he hslash]
      exact ⟨h.beforeComment, beforeComment_of_notMem Layout.between_noSlash⟩
    have hbefore : beforeComment (text ++ l.trailing) = some (text ++ l.between) := by
      have hslash : (text ++ l.between).getLast? ≠ some '/' := by
        intro he
        rcases hb : l.between with _ | ⟨d, b⟩
        · rw [hb, List.append_nil] at he
          exact (h.last '/' he).2 rfl
        · rw [hb, List.getLast?_append_of_ne_nil _ (by simp), ← hb] at he
          exact Layout.between_noSlash (List.mem_of_getLast? he)
      rw [hc, ← List.append_assoc, beforeComment_append hnone fun he => absurd he hslash]
      simp [beforeComment]
    have hgap := rdropWhile_append_of_all (a := l.gap.1 ++ l.commaText)
      (blank_space l.gapAfterComma)
    rw [removeComment, hbefore]
    dsimp only
    rw [rdropWhile_append_of_last fun c hc => (h.last c hc).1, Layout.between, hgap,
      Layout.commaText, stripComma_append h.nonempty (fun c hc => (h.first c hc).1)
      fun c hc => ⟨(h.last_comma c hc).1, (h.last_comma c hc).2.2⟩]
    split_ifs
    · rw [List.rdropWhile_concat_neg _ _ _ (by simp), List.rdropWhile_concat_pos _ _ _ (by simp)]
      rw [List.append_right_eq_self, List.rdropWhile_eq_nil_iff]
      exact fun x hx => blank_space l.gap x ((List.rdropWhile_prefix _ _).subset hx)
    · have : l.gap.1.rdropWhile U.isSpace = [] := List.rdropWhile_eq_nil_iff.2 (blank_space l.gap)
      simp [this]

theorem absorb_continuation :
    absorb U (m.text ++ m.layout.trailing) ((n, some v) :: rest) =
      (n, some (v ++ ' ' :: rewriteReferences U m.text)) :: rest := by
  simp only [absorb, m.matches, m.isContinuation, if_true, removeComment_trailing m.isExpression]

/-- A name that waits for its value takes the line as it is. -/
theorem absorb_continuation_none :
    absorb U (m.text ++ m.layout.trailing) ((n, none) :: rest) =
      (n, some (rewriteReferences U (stripComma U (m.text ++ m.layout.trailing)))) :: rest := by
  simp [absorb, m.matches, m.isConstantName]

theorem absorb_continuation_nil : absorb U (m.text ++ m.layout.trailing) [] = [] := by
  obtain ⟨c, tail, ht, hc⟩ := m.head
  have hname : isNameOnly U (m.text ++ m.layout.trailing) = false :=
    isNameOnly_eq_false (c := c) (by simp [ht]) (by rcases hc with rfl | rfl <;> simp)
  simp [absorb, m.matches, absorbNameOnly, hname]

end Continuations

end VhalCore.AidlHeaders
