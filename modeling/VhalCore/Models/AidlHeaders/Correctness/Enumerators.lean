import VhalCore.Models.AidlHeaders.Correctness.EnumValues

/-!
# An enumerator after others

An enumerator that is supported is found with its name and value, after the ones before it. One
that is not leaves a list that does not end with the enumerators up to it, and whatever the
lines after it do, the list never does again.
-/

namespace VhalCore.AidlHeaders

variable {U : CharClasses} {n text : Text} {l : Layout U} {s : ParseState}
  {found found₁ found₂ found' declared : List (Text × Option Text)}

section Suffixes

variable {value value' : Option Text}

/-- Of two values for one name only one was found. -/
theorem suffix_cons_same (h : value' ≠ value) :
    ¬(n, value) :: found <:+ (n, value') :: found := by
  intro hs
  have := hs.eq_of_length (by simp)
  simp only [List.cons.injEq, Prod.mk.injEq, true_and, and_true] at this
  exact h this.symm

/-- A changed list still has the name that was found last. -/
theorem Touched.eq_cons {p : Text × Option Text} (h : Touched (p :: found) found') :
    ∃ value, found' = (p.1, value) :: found := by
  obtain ⟨htail, hnames⟩ := h
  cases found' with
  | nil => simp at hnames
  | cons q found' =>
    simp only [List.map_cons, List.cons.injEq] at hnames
    exact ⟨q.2, by rw [← hnames.1]; exact congrArg (q :: ·) htail⟩

/-- What was found before the last name is found still. -/
theorem suffix_tail {p : Text × Option Text} (h : p :: declared <:+ found) :
    declared <:+ found.tail := by
  obtain ⟨front, rfl⟩ := h
  cases front with
  | nil => exact List.suffix_rfl
  | cons q front => exact ⟨front ++ [p], by simp⟩

/-- What the lines of an enumerator can do, line by line. -/
structure Steps (n : Text) (found found₁ found₂ found' : List (Text × Option Text)) : Prop where
  first : Touched found found₁ ∨ ∃ value, found₁ = (n, value) :: found
  second : Touched found₁ found₂ ∨ ∃ p, p.1 ≠ n ∧ found₂ = p :: found₁
  others : Touched found₂ found'

namespace Steps

/-- A list that did not end with the enumerators before does not do so now. -/
theorem not_suffix (h : Steps n found found₁ found₂ found') (hb : ¬declared <:+ found) :
    ¬(n, value) :: declared <:+ found' := by
  have hfirst : ¬declared <:+ found₁.tail := by
    rcases h.first with ht | ⟨value, rfl⟩
    · rw [ht.1]
      exact fun hs => hb (hs.trans (List.tail_suffix _))
    · exact hb
  intro hs
  rcases h.second with ht | ⟨p, hp, rfl⟩
  · have := suffix_tail hs
    rw [h.others.1, ht.1] at this
    exact hfirst this
  · obtain ⟨v, rfl⟩ := h.others.eq_cons
    rcases List.suffix_cons_iff.1 hs with heq | hs
    · exact hp (congrArg Prod.fst (List.cons.inj heq).1).symm
    · exact hfirst (suffix_tail hs)

/-- A name that its own line does not find is not found. -/
theorem lost (h : Steps n found found₁ found₂ found') (hl : Touched found found₁) :
    ¬(n, value) :: found <:+ found' := by
  intro hs
  rcases h.second with ht | ⟨p, hp, rfl⟩
  · have := hs.length_le
    rw [((hl.trans ht).trans h.others).length] at this
    simp at this
  · obtain ⟨v, rfl⟩ := h.others.eq_cons
    have := hs.eq_of_length (by simp [hl.length])
    exact hp (congrArg Prod.fst (List.cons.inj this).1).symm

/-- A name that is found with another value keeps it when another one is found. -/
theorem overtaken {p : Text × Option Text} (h : Touched (p :: (n, value') :: found) found')
    (hp : p.1 ≠ n) (hv : value' ≠ value) : ¬(n, value) :: found <:+ found' := by
  obtain ⟨v, rfl⟩ := h.eq_cons
  intro hs
  rcases List.suffix_cons_iff.1 hs with heq | hs
  · exact hp (congrArg Prod.fst (List.cons.inj heq).1).symm
  · exact suffix_cons_same hv hs

end Steps

end Suffixes

section Forms

variable {name value : Text} {beforeEquals afterEquals : Blank U} {head layout : Layout U}
  {more : List (Continuation U)}

/-- A name with its value is the text of a line. -/
theorem valueLine_lineText (h : IsName name) (hv : IsExpression U value) :
    IsLineText U (name ++ (beforeEquals.1 ++ '=' :: (afterEquals.1 ++ value))) := by
  have := IsLineText.append (b := beforeEquals.1 ++ '=' :: (afterEquals.1 ++ value)) h.nonempty
    (by simp) (h.first_word (U := U))
  refine this ?_
  have htext : beforeEquals.1 ++ '=' :: (afterEquals.1 ++ value) =
      beforeEquals.1 ++ '=' :: afterEquals.1 ++ value := by simp
  rw [htext, List.getLast?_append_of_ne_nil _ hv.nonempty]
  exact hv.last_comma

theorem headLine_lineText (h : IsName name) (beforeEquals : Blank U) :
    IsLineText U (name ++ (beforeEquals.1 ++ ['='])) := by
  refine IsLineText.append h.nonempty (by simp) h.first_word ?_
  rw [List.getLast?_append_of_ne_nil _ (by simp)]
  simp

/-- A line that begins with the name of an enumerator finds it or nothing. -/
theorem parseLine_first (h : IsLineText U text) (hn : text.takeWhile U.isWord = n)
    (l : Layout U) (s : ParseState) :
    Touched s.view (parseLine U s (l.line text)).view ∨
      ∃ value, (parseLine U s (l.line text)).view = (n, value) :: s.view := by
  rcases parseLine_cases (l := l) (s := s) h with hs | hs
  · rw [hs]
    exact .inl (.refl _)
  · rw [hs, ← hn, ← takeWhile_append_left l.trailing_head]
    exact absorb_cases _ _

/-- The line of a value that declares nothing finds no enumerator of this name. -/
theorem parseLine_second (hv : IsExpression U text) (hd : ¬Declares U n text)
    (l : Layout U) (s : ParseState) :
    Touched s.view (parseLine U s (l.line text)).view ∨
      ∃ p, p.1 ≠ n ∧ (parseLine U s (l.line text)).view = p :: s.view := by
  by_cases hn : text.takeWhile U.isWord = n
  · rcases parseLine_cases (l := l) (s := s) hv.lineText with hs | hs
    · rw [hs]
      exact .inl (.refl _)
    · rw [hs]
      exact .inl (absorb_undeclared hv hn hd _ _)
  · exact (parseLine_first hv.lineText rfl l s).imp_right fun ⟨_, hfound⟩ => ⟨_, hn, hfound⟩

theorem takeWhile_name (h : IsName name) {tail : Text}
    (ht : ∀ c ∈ tail.head?, U.isWord c = false) : (name ++ tail).takeWhile U.isWord = name :=
  takeWhile_append_of_head h.word ht

/-- A name ends before the blanks and the equals sign. -/
theorem gap_head (b : Blank U) (tail : Text) :
    ∀ c ∈ (b.1 ++ '=' :: tail).head?, U.isWord c = false := by
  rcases hb : b.1 with _ | ⟨d, _⟩
  · simp
  · have := U.not_word_of_space (blank_space b d (by simp [hb]))
    simpa using this

/-- The steps for an enumerator without a value. -/
theorem name_steps (h : IsName name) (layout : Layout U) (s : ParseState) :
    Steps name s.view (parseLine U s (layout.line name)).view
      (parseLine U s (layout.line name)).view (parseLine U s (layout.line name)).view where
  first := parseLine_first h.lineText (List.takeWhile_eq_self_iff.2 h.word) _ _
  second := .inl (.refl _)
  others := .refl _

/-- The steps for an enumerator with its value on the same line. -/
theorem value_steps (h : IsName name) (hv : IsExpression U value) (layout : Layout U)
    (more : List (Continuation U)) (s : ParseState) :
    let first := parseLine U s
      (layout.line (name ++ (beforeEquals.1 ++ '=' :: (afterEquals.1 ++ value))))
    Steps name s.view first.view first.view
      ((continuationLines more).foldl (parseLine U) first).view where
  first := parseLine_first (valueLine_lineText h hv) (takeWhile_name h (gap_head _ _)) _ _
  second := .inl (.refl _)
  others := continuations_touched more _

/-- The steps for an enumerator whose value starts on the next line. -/
theorem nextLine_steps (h : IsName name) (hv : IsExpression U value)
    (hd : ¬Declares U name value) (beforeEquals : Blank U) (head layout : Layout U)
    (more : List (Continuation U)) (s : ParseState) :
    let first := parseLine U s (head.line (name ++ (beforeEquals.1 ++ ['='])))
    let second := parseLine U first (layout.line value)
    Steps name s.view first.view second.view
      ((continuationLines more).foldl (parseLine U) second).view where
  first := parseLine_first (headLine_lineText h _) (takeWhile_name h (gap_head _ _)) _ _
  second := parseLine_second hv hd _ _
  others := continuations_touched more _

end Forms

section Enumerators

variable (e : Enumerator U)

theorem continuationLines_eq (more : List (Continuation U)) :
    ((more.map fun m => (m.text, m.layout)).map fun p => p.2.line p.1) =
      continuationLines more := by
  simp [continuationLines, Function.comp_def]

/-- The lines of an enumerator find one of its name at most once. -/
theorem enumerator_steps (s : ParseState) :
    ∃ found₁ found₂, Steps e.name s.view found₁ found₂
      (e.lines.foldl (parseLine U) s).view := by
  obtain ⟨name, form, isName, wellFormed⟩ := e
  cases form with
  | name layout => exact ⟨_, _, name_steps isName layout s⟩
  | value beforeEquals afterEquals value layout more =>
    rw [Enumerator.lines, Form.lines, List.map_cons, continuationLines_eq]
    exact ⟨_, _, value_steps isName wellFormed layout more s⟩
  | nextLine beforeEquals head value layout more =>
    rw [Enumerator.lines, Form.lines, List.map_cons, List.map_cons, continuationLines_eq]
    exact ⟨_, _, nextLine_steps isName wellFormed.1 wellFormed.2 beforeEquals
      { head with comma := false } layout more s⟩

theorem not_endsBlock_of_none (h : l.comment = none) : ¬l.EndsBlock := by
  rintro ⟨comment, hc, -⟩
  simp [h] at hc

theorem parseLine_noComment (h : IsLineText U text) (hl : l.comment = none) :
    (parseLine U s (l.line text)).view = absorb U text s.view := by
  rw [parseLine_view h (not_endsBlock_of_none hl), Layout.trailing_of_none hl, List.append_nil]

/-- A supported enumerator is found after the ones before it. -/
theorem enumerator_found (s : ParseState) (hs : e.form.Supported e.name s.view.head?) :
    (e.lines.foldl (parseLine U) s).view = e.declared :: s.view := by
  obtain ⟨name, form, isName, wellFormed⟩ := e
  cases form with
  | name layout =>
    obtain ⟨hl, hconstant⟩ := hs
    refine (parseLine_noComment isName.lineText hl).trans (absorb_name isName ?_)
    intro p hp hnone
    exact hconstant ⟨p.1, by rw [Option.mem_def.1 hp, ← hnone]⟩
  | value beforeEquals afterEquals value layout more =>
    obtain ⟨⟨hslash, hl⟩, hmore⟩ := hs
    have hv : IsExpression U value := wellFormed
    have hends : ¬layout.EndsBlock := hl.elim not_endsBlock_of_none And.right
    have hfirst : (parseLine U s (layout.line (name ++ (beforeEquals.1 ++ '=' ::
        (afterEquals.1 ++ value))))).view = (name, some (rewriteReferences U value)) :: s.view := by
      rw [parseLine_view (valueLine_lineText isName hv) hends]
      exact absorb_value isName hv hslash (hl.imp_right And.left) s.view
    rw [Enumerator.lines, Form.lines, List.map_cons, continuationLines_eq]
    exact continuations_view hmore hfirst
  | nextLine beforeEquals head value layout more =>
    obtain ⟨⟨hhead, hl, hconstant, hmatch, hequals⟩, hmore⟩ := hs
    have hv : IsExpression U value := wellFormed.1
    have hfirst := parseLine_noComment (s := s) (l := { head with comma := false })
      (headLine_lineText isName beforeEquals) hhead
    rw [absorb_head isName] at hfirst
    have hsecond := parseLine_noComment (l := layout) (s := parseLine U s
      (Layout.line { head with comma := false } (name ++ (beforeEquals.1 ++ ['='])))) hv.lineText hl
    rw [hfirst, absorb_nextValue hv hconstant hmatch hequals] at hsecond
    rw [Enumerator.lines, Form.lines, List.map_cons, List.map_cons, continuationLines_eq]
    exact continuations_view hmore hsecond

/-- A value that is behind its text does not become it. -/
theorem behind_not_found {name value : Text} {found : Option Text}
    {rest : List (Text × Option Text)} {more : List (Continuation U)} (hv : IsExpression U value)
    (hs : s.view = (name, found) :: rest) (hb : Behind (rewriteReferences U value) found) :
    ¬(name, some (rewriteReferences U value ++ continued more)) :: rest <:+
      ((continuationLines more).foldl (parseLine U) s).view := by
  obtain ⟨found', hview, hbehind⟩ := continuations_behind more hs hb
  rw [hview]
  exact suffix_cons_same (hbehind.ne hv)

/-- A value with a continuation whose comment ends like a block comment is not found. -/
theorem dropped_not_found {name value : Text} {rest : List (Text × Option Text)}
    {more : List (Continuation U)} (hv : IsExpression U value)
    (hs : s.view = (name, some (rewriteReferences U value)) :: rest)
    (hd : ∃ m ∈ more, m.layout.EndsBlock) :
    ¬(name, some (rewriteReferences U value ++ continued more)) :: rest <:+
      ((continuationLines more).foldl (parseLine U) s).view := by
  obtain ⟨found', hview, hbehind⟩ := continuations_dropped hs hd
  rw [hview]
  exact suffix_cons_same (hbehind.ne hv)

theorem touched_of_endsBlock (h : IsLineText U text) (he : l.EndsBlock) :
    Touched s.view (parseLine U s (l.line text)).view := by
  rw [parseLine_endsBlock h he]
  exact .refl _

/-- A name that is not supported is not found. -/
theorem name_not_found {name : Text} {layout : Layout U} (h : IsName name)
    (hs : ¬(Form.name layout).Supported name s.view.head?) :
    Touched s.view (parseLine U s (layout.line name)).view := by
  by_cases he : layout.EndsBlock
  · exact touched_of_endsBlock h.lineText he
  by_cases hl : layout.comment = none
  · rw [parseLine_noComment h.lineText hl]
    simp only [Form.Supported, hl, true_and, Classical.not_imp, Bool.not_eq_true] at hs
    obtain ⟨⟨n, hn⟩, hconstant⟩ := hs
    obtain ⟨rest, hrest⟩ := List.head?_eq_some_iff.1 hn
    rw [hrest]
    exact absorb_name_swallowed h hconstant n rest
  · rw [parseLine_view h.lineText he]
    exact absorb_name_comment h hl _

/-- The first line of a value that is not supported finds nothing. -/
theorem value_not_found {name value : Text} {beforeEquals afterEquals : Blank U}
    {layout : Layout U} (h : IsName name) (hv : IsExpression U value)
    (hs : ¬('/' ∉ value ∧ (layout.comment = none ∨ layout.comma = false ∧ ¬layout.EndsBlock))) :
    Touched s.view (parseLine U s
      (layout.line (name ++ (beforeEquals.1 ++ '=' :: (afterEquals.1 ++ value))))).view := by
  by_cases he : layout.EndsBlock
  · exact touched_of_endsBlock (valueLine_lineText h hv) he
  · rw [parseLine_view (valueLine_lineText h hv) he]
    refine absorb_value_other h hv ?_ _
    by_cases hslash : '/' ∈ value
    · exact .inl hslash
    · right
      simp only [hslash, not_false_eq_true, true_and, he, and_true, not_or,
        Bool.not_eq_false] at hs
      exact hs

/-- A value that declares nothing is not found as an enumerator of its name. -/
theorem takeWhile_ne_of_found {name value tail : Text} {found : List (Text × Option Text)}
    {p : Text × Option Text} (hv : IsExpression U value) (hd : ¬Declares U name value)
    (h : absorb U (value ++ tail) found = p :: found) : value.takeWhile U.isWord ≠ name := by
  intro hn
  have hlength := (absorb_undeclared hv hn hd tail found).length
  rw [h, List.length_cons] at hlength
  omega

/-- After a name that was found without its value, the value that is found falls behind. -/
theorem nextLine_not_found {name value : Text} {layout : Layout U}
    {rest : List (Text × Option Text)} (more : List (Continuation U)) (hv : IsExpression U value)
    (hd : ¬Declares U name value) (hs : s.view = (name, none) :: rest)
    (hother : ¬(layout.comment = none ∧ isConstantName U value = false ∧
      matchNameValue U value = none ∧ matchNameEquals U value = none)) :
    ¬(name, some (rewriteReferences U value ++ continued more)) :: rest <:+
      ((continuationLines more).foldl (parseLine U) (parseLine U s (layout.line value))).view := by
  by_cases he : layout.EndsBlock
  · exact behind_not_found hv ((parseLine_endsBlock hv.lineText he).trans hs) trivial
  have hview := parseLine_view (s := s) hv.lineText he
  rw [hs] at hview
  rcases absorb_nextValue_other name rest hv hother with ⟨o, ho⟩ | ⟨t, ht, ho⟩
  · have htouched := continuations_touched more (parseLine U s (layout.line value))
    rw [hview, ho] at htouched
    exact Steps.overtaken htouched (takeWhile_ne_of_found hv hd ho) (by simp)
  · exact behind_not_found hv (hview.trans ho) (.inl ht)

/-- After a name that was found with an empty value, too. -/
theorem empty_not_found {name value : Text} {layout : Layout U}
    {rest : List (Text × Option Text)} (more : List (Continuation U)) (hv : IsExpression U value)
    (hd : ¬Declares U name value) (hs : s.view = (name, some []) :: rest) :
    ¬(name, some (rewriteReferences U value ++ continued more)) :: rest <:+
      ((continuationLines more).foldl (parseLine U) (parseLine U s (layout.line value))).view := by
  have hvalue := (rewritten_head hv).1
  have hempty : Behind (rewriteReferences U value) (some []) :=
    .inr (.inl (List.length_pos_iff.2 hvalue))
  rcases parseLine_cases (l := layout) (s := s) hv.lineText with hview | hview
  · exact behind_not_found hv (hview.trans hs) hempty
  rw [hs] at hview
  rcases absorb_afterEmpty (U := U) name (value ++ layout.trailing) rest with
    ⟨o, ho⟩ | ho | ⟨t, ho⟩
  · have htouched := continuations_touched more (parseLine U s (layout.line value))
    rw [takeWhile_append_left layout.trailing_head] at ho
    rw [hview, ho] at htouched
    exact Steps.overtaken htouched (takeWhile_ne_of_found hv hd ho) (by simp [hvalue])
  · exact behind_not_found hv (hview.trans ho) hempty
  · exact behind_not_found hv (hview.trans ho) (.inr (.inr rfl))

/-- An enumerator that is not supported is not found. -/
theorem enumerator_not_found (s : ParseState) (hs : ¬e.form.Supported e.name s.view.head?) :
    ¬e.declared :: s.view <:+ (e.lines.foldl (parseLine U) s).view := by
  obtain ⟨name, form, isName, wellFormed⟩ := e
  cases form with
  | name layout => exact (name_steps isName layout s).lost (name_not_found isName hs)
  | value beforeEquals afterEquals value layout more =>
    have hv : IsExpression U value := wellFormed
    rw [Enumerator.lines, Form.lines, List.map_cons, continuationLines_eq]
    by_cases hfirst : '/' ∉ value ∧
        (layout.comment = none ∨ layout.comma = false ∧ ¬layout.EndsBlock)
    · have hends : ¬layout.EndsBlock := hfirst.2.elim not_endsBlock_of_none And.right
      have hview : (parseLine U s (layout.line (name ++ (beforeEquals.1 ++ '=' ::
          (afterEquals.1 ++ value))))).view =
          (name, some (rewriteReferences U value)) :: s.view := by
        rw [parseLine_view (valueLine_lineText isName hv) hends]
        exact absorb_value isName hv hfirst.1 (hfirst.2.imp_right And.left) s.view
      refine dropped_not_found hv hview ?_
      by_contra hno
      push Not at hno
      exact hs ⟨hfirst, hno⟩
    · exact (value_steps isName hv layout more s).lost (value_not_found isName hv hfirst)
  | nextLine beforeEquals head value layout more =>
    obtain ⟨hv, hd⟩ : IsExpression U value ∧ ¬Declares U name value := wellFormed
    rw [Enumerator.lines, Form.lines, List.map_cons, List.map_cons, continuationLines_eq]
    have hline := headLine_lineText isName beforeEquals
    have hsteps := nextLine_steps isName hv hd beforeEquals
      { head with comma := false } layout more s
    by_cases he : Layout.EndsBlock { head with comma := false }
    · exact hsteps.lost (touched_of_endsBlock hline he)
    by_cases hhead : head.comment = none
    · have hfirst := parseLine_noComment (s := s) (l := { head with comma := false }) hline hhead
      rw [absorb_head isName] at hfirst
      by_cases hsupported : layout.comment = none ∧ isConstantName U value = false ∧
          matchNameValue U value = none ∧ matchNameEquals U value = none
      · obtain ⟨hl, hconstant, hmatch, hequals⟩ := hsupported
        have hsecond := parseLine_noComment (l := layout) (s := parseLine U s
          (Layout.line { head with comma := false } (name ++ (beforeEquals.1 ++ ['=']))))
          hv.lineText hl
        rw [hfirst, absorb_nextValue hv hconstant hmatch hequals] at hsecond
        refine dropped_not_found hv hsecond ?_
        by_contra hno
        push Not at hno
        exact hs ⟨⟨hhead, hl, hconstant, hmatch, hequals⟩, hno⟩
      · exact nextLine_not_found more hv hd hfirst hsupported
    · have hview := parseLine_view (s := s) hline he
      rcases absorb_head_comment
        (l := { head with comma := false }) isName beforeEquals hhead rfl s.view with
        hempty | htouched
      · exact empty_not_found more hv hd (hview.trans hempty)
      · rw [← hview] at htouched
        exact hsteps.lost htouched

end Enumerators

end VhalCore.AidlHeaders
