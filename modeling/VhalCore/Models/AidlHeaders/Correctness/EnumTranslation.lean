import VhalCore.Models.AidlHeaders.Correctness.Enumerators

/-!
# Every enumerator is kept

The script finds the enumerators of a body, with their values and in their order, exactly where
each of them is supported in its place.
-/

namespace VhalCore.AidlHeaders

variable {U : CharClasses}

namespace EnumBody

/-- What is found are the declarations. -/
def Translates (body : EnumBody U) : Prop :=
  (parseEnumValues U body.text).map (fun e => (e.name, e.value)) = body.declared

/-- The lines that are generated are then those of the declarations. -/
theorem Translates.lines {body : EnumBody U} (h : body.Translates) :
    (parseEnumValues U body.text).map (fun e => enumeratorLine e.name e.value) =
      body.declared.map fun d => enumeratorLine d.1 d.2 := by
  rw [← h, List.map_map]
  rfl

end EnumBody

section Splitting

theorem newline_notMem_blank (b : Blank U) : '\n' ∉ b.1 := fun h => (b.2 _ h).2 rfl

/-- No line of an enumerator holds a line break. -/
theorem Layout.newline_notMem_line {text : Text} (l : Layout U) (h : '\n' ∉ text) :
    '\n' ∉ l.line text := by
  have hcomment : ∀ comment, l.comment = some comment → '\n' ∉ comment.1 :=
    fun comment _ => comment.2
  simp only [line, between, commaText, List.mem_append, newline_notMem_blank, h, false_or,
    or_false, not_or]
  constructor
  · split_ifs <;> simp
  · cases hc : l.comment with
    | none => simp
    | some comment => simpa using hcomment comment hc

theorem IsName.newline_notMem {name : Text} (h : IsName name) : '\n' ∉ name := by
  intro hm
  have := h.chars _ hm
  simp [Char.isAlphanum] at this

/-- The lines of an enumerator are single lines. -/
theorem Enumerator.newline_notMem (e : Enumerator U) : ∀ line ∈ e.lines, '\n' ∉ line := by
  have hname := e.isName.newline_notMem
  have hmore : ∀ more : List (Continuation U), ∀ m ∈ more, '\n' ∉ m.text :=
    fun _ m _ hm => (m.isExpression.chars _ hm).2 rfl
  have htext : ∀ p ∈ e.form.lines e.name, '\n' ∉ p.1 := by
    obtain ⟨name, form, isName, wellFormed⟩ := e
    cases form with
    | name layout => simpa [Form.lines] using hname
    | value beforeEquals afterEquals value layout more =>
      have hv : '\n' ∉ value := fun hm => (IsExpression.chars wellFormed _ hm).2 rfl
      simpa [Form.lines, newline_notMem_blank, hname, hv] using hmore more
    | nextLine beforeEquals head value layout more =>
      have hv : '\n' ∉ value := fun hm => (wellFormed.1.chars _ hm).2 rfl
      simpa [Form.lines, newline_notMem_blank, hname, hv] using hmore more
  intro line hm
  obtain ⟨p, hp, rfl⟩ := List.mem_map.1 hm
  exact p.2.newline_notMem_line (htext p hp)

/-- The lines of a comment are single lines. -/
theorem Comment.newline_notMem (comment : Comment U) : ∀ line ∈ comment.lines, '\n' ∉ line := by
  cases comment with
  | blank b => simpa [Comment.lines] using newline_notMem_blank b
  | line indent text => simpa [Comment.lines, newline_notMem_blank] using text.2
  | block indent first inner ends =>
    have hinner : ∀ p ∈ inner, '\n' ∉ p.2.1 := fun p _ => p.2.2
    have hfirst : '\n' ∉ first.1 := first.2
    simp only [Comment.lines, List.mem_cons, List.mem_map]
    rintro line (rfl | ⟨p, hp, rfl⟩)
    · simpa [newline_notMem_blank] using hfirst
    · simpa [newline_notMem_blank] using hinner p hp

/-- The lines of a body are what its text is split into. -/
theorem EnumBody.splitOn_text (body : EnumBody U) : body.text.splitOn '\n' = body.lines := by
  refine List.splitOn_intercalate _ ?_ (by simp [EnumBody.lines])
  intro line hm
  simp only [EnumBody.lines, List.mem_append, List.mem_flatMap, List.mem_singleton] at hm
  rcases hm with ⟨p, -, ⟨comment, -, hc⟩ | he⟩ | ⟨comment, -, hc⟩ | rfl
  · exact comment.newline_notMem line hc
  · exact p.2.newline_notMem line he
  · exact comment.newline_notMem line hc
  · exact newline_notMem_blank _

end Splitting

section Bodies

variable {s : ParseState} {declared : List (Text × Option Text)}
  {enumerators : List (List (Comment U) × Enumerator U)}

/-- The lines of the enumerators and of the comments before them. -/
def enumeratorLines (enumerators : List (List (Comment U) × Enumerator U)) : List Text :=
  enumerators.flatMap fun p => p.1.flatMap Comment.lines ++ p.2.lines

/-- The enumerators, the last one first. -/
def declaredBefore (enumerators : List (List (Comment U) × Enumerator U)) :
    List (Text × Option Text) := (enumerators.map fun p => p.2.declared).reverse

/-- An enumerator is read after the comments before it, and before all others. -/
theorem foldl_enumeratorLines_cons (p : List (Comment U) × Enumerator U)
    (enumerators : List (List (Comment U) × Enumerator U)) (s : ParseState) :
    (enumeratorLines (p :: enumerators)).foldl (parseLine U) s =
      (enumeratorLines enumerators).foldl (parseLine U)
        (p.2.lines.foldl (parseLine U) ((p.1.flatMap Comment.lines).foldl (parseLine U) s)) := by
  simp [enumeratorLines]

theorem declaredBefore_cons (p : List (Comment U) × Enumerator U)
    (enumerators : List (List (Comment U) × Enumerator U)) :
    declaredBefore (p :: enumerators) ++ declared =
      declaredBefore enumerators ++ p.2.declared :: declared := by
  simp [declaredBefore]

/-- Supported enumerators are found one after the other. -/
theorem enumerators_found (h : EnumBody.SupportedFrom s.view.head? enumerators) :
    ((enumeratorLines enumerators).foldl (parseLine U) s).view =
      declaredBefore enumerators ++ s.view := by
  induction enumerators generalizing s with
  | nil => rfl
  | cons p enumerators ih =>
    have hcomments := comments_view (s := s) p.1
    have hfound := enumerator_found p.2 ((p.1.flatMap Comment.lines).foldl (parseLine U) s)
      (by rw [hcomments]; exact h.1)
    rw [hcomments] at hfound
    rw [foldl_enumeratorLines_cons, ih (by rw [hfound]; exact h.2), hfound, declaredBefore_cons]

/-- What does not end with the enumerators so far never ends with them again. -/
theorem enumerators_not_suffix (h : ¬declared <:+ s.view) :
    ¬declaredBefore enumerators ++ declared <:+
      ((enumeratorLines enumerators).foldl (parseLine U) s).view := by
  induction enumerators generalizing s declared with
  | nil => exact h
  | cons p enumerators ih =>
    rw [← comments_view (s := s) p.1] at h
    obtain ⟨found₁, found₂, hsteps⟩ :=
      enumerator_steps p.2 ((p.1.flatMap Comment.lines).foldl (parseLine U) s)
    rw [foldl_enumeratorLines_cons, declaredBefore_cons]
    exact ih (hsteps.not_suffix h)

/-- With an enumerator that is not supported they are not what is found. -/
theorem enumerators_not_found (h : ¬EnumBody.SupportedFrom s.view.head? enumerators) :
    ¬declaredBefore enumerators ++ s.view <:+
      ((enumeratorLines enumerators).foldl (parseLine U) s).view := by
  induction enumerators generalizing s with
  | nil => exact absurd trivial h
  | cons p enumerators ih =>
    have hcomments := comments_view (s := s) p.1
    rw [foldl_enumeratorLines_cons, declaredBefore_cons]
    by_cases hp : p.2.form.Supported p.2.name s.view.head?
    · have hfound := enumerator_found p.2 ((p.1.flatMap Comment.lines).foldl (parseLine U) s)
        (by rw [hcomments]; exact hp)
      rw [hcomments] at hfound
      rw [← hfound]
      refine ih fun hrest => h ⟨hp, ?_⟩
      rwa [hfound] at hrest
    · have hnot := enumerator_not_found p.2 ((p.1.flatMap Comment.lines).foldl (parseLine U) s)
        (by rw [hcomments]; exact hp)
      rw [hcomments] at hnot
      exact enumerators_not_suffix hnot

/-- The enumerators found in a body, the last one first. -/
theorem parseEnumValues_view (body : EnumBody U) :
    (parseEnumValues U body.text).map (fun e => (e.name, e.value)) =
      ((enumeratorLines body.enumerators).foldl (parseLine U) {}).view.reverse := by
  have hclosing := comments_view
    (s := (enumeratorLines body.enumerators).foldl (parseLine U) {}) body.closing
  rw [parseEnumValues, body.splitOn_text, EnumBody.lines, List.foldl_append, List.foldl_append,
    List.foldl_cons, List.foldl_nil, parseLine_blank, List.map_reverse]
  exact congrArg List.reverse hclosing

/-- The enumerators of a body are found with their values and in their order exactly where each is
supported. -/
theorem translates_iff (body : EnumBody U) : body.Translates ↔ body.Supported := by
  have hdeclared : body.declared = (declaredBefore body.enumerators).reverse := by
    simp [EnumBody.declared, declaredBefore]
  have hview := parseEnumValues_view body
  constructor
  · intro hvalues
    rw [hvalues, hdeclared, List.reverse_inj] at hview
    by_contra hs
    exact enumerators_not_found (s := {}) hs ⟨[], (List.append_nil _).trans hview⟩
  · intro hs
    have hfound := enumerators_found (s := {}) hs
    rw [hfound, show ({} : ParseState).view = [] from rfl, List.append_nil, ← hdeclared] at hview
    exact hview

end Bodies

section Example

/-- The classes where they are used here. -/
def asciiClasses : CharClasses where
  isSpace c := c.toNat = 32 || (9 ≤ c.toNat && c.toNat ≤ 13) || (28 ≤ c.toNat && c.toNat ≤ 31)
  isWord c := c.isAlphanum || c = '_'
  space_ascii _ _ := rfl
  word_ascii _ _ := rfl
  disjoint c h := by
    rw [Bool.or_eq_true, decide_eq_true_eq] at h
    rcases h with h | rfl
    · rw [isAlphanum_iff] at h
      simp only [Bool.or_eq_false_iff, Bool.and_eq_false_iff, decide_eq_false_iff_not]
      omega
    · rfl

/-- No blank at all. -/
def noBlank : Blank asciiClasses := ⟨[], by simp⟩

/-- One space. -/
def space : Blank asciiClasses := ⟨[' '], by simp [asciiClasses]⟩

/-- `LOW = 1, // dim` and on the next line `HIGH`. -/
def commentAfterComma : EnumBody asciiClasses where
  enumerators :=
    [([], { name := ['L', 'O', 'W']
            form := .value space space ['1']
              ⟨noBlank, noBlank, true, space, some ⟨[' ', 'd', 'i', 'm'], by decide⟩⟩ []
            isName := ⟨by simp, by simp [isAlphanum_iff], by simp [Char.isDigit]⟩
            wellFormed := ⟨by simp, by simp, by simp [asciiClasses], by simp [asciiClasses],
              by decide⟩ }),
      ([], { name := ['H', 'I', 'G', 'H']
             form := .name ⟨noBlank, noBlank, false, noBlank, none⟩
             isName := ⟨by simp, by simp [isAlphanum_iff], by simp [Char.isDigit]⟩
             wellFormed := trivial })]
  closing := []
  lastLine := noBlank
  distinct := by decide

/-- The first enumerator is dropped, and the second one becomes zero. -/
theorem comment_after_comma_drops :
    (parseEnumValues asciiClasses commentAfterComma.text).map
        (fun e => enumeratorLine e.name e.value) = ["    HIGH,".toList] ∧
      (commentAfterComma.declared.map fun d => enumeratorLine d.1 d.2) =
        ["    LOW = 1,".toList, "    HIGH,".toList] ∧
      ¬commentAfterComma.Translates := by
  have hfound : (parseEnumValues asciiClasses commentAfterComma.text).map
      (fun e => enumeratorLine e.name e.value) = ["    HIGH,".toList] := by decide
  have hdeclared : (commentAfterComma.declared.map fun d => enumeratorLine d.1 d.2) =
      ["    LOW = 1,".toList, "    HIGH,".toList] := by decide
  refine ⟨hfound, hdeclared, fun h => ?_⟩
  have := congrArg List.length (hfound.symm.trans (h.lines.trans hdeclared))
  simp at this

/-- `LOW = 1,`, then `MID =` with `Mode.LOW` and `+ 2, // 2x` on lines of their own, then
`HIGH`. -/
def threeForms : EnumBody asciiClasses where
  enumerators :=
    [([.line noBlank ⟨['T', 'h', 'r', 'e', 'e'], by decide⟩],
        { name := ['L', 'O', 'W']
          form := .value space space ['1'] ⟨space, noBlank, true, noBlank, none⟩ []
          isName := ⟨by simp, by simp [isAlphanum_iff], by simp [Char.isDigit]⟩
          wellFormed := ⟨by simp, by simp, by simp [asciiClasses], by simp [asciiClasses],
            by decide⟩ }),
      ([], { name := ['M', 'I', 'D']
             form := .nextLine space ⟨space, noBlank, false, noBlank, none⟩
               ['M', 'o', 'd', 'e', '.', 'L', 'O', 'W'] ⟨space, noBlank, false, noBlank, none⟩
               [{ text := ['+', ' ', '2']
                  layout := ⟨space, noBlank, true, space, some ⟨[' ', '2', 'x'], by decide⟩⟩
                  isExpression := ⟨by simp, by simp, by simp [asciiClasses],
                    by simp [asciiClasses], by decide⟩
                  operator := by decide }]
             isName := ⟨by simp, by simp [isAlphanum_iff], by simp [Char.isDigit]⟩
             wellFormed := ⟨⟨by simp, by simp, by simp [asciiClasses], by simp [asciiClasses],
               by decide⟩, by simp [Declares]⟩ }),
      ([.blank noBlank], { name := ['H', 'I', 'G', 'H']
                           form := .name ⟨space, noBlank, false, noBlank, none⟩
                           isName := ⟨by simp, by simp [isAlphanum_iff], by simp [Char.isDigit]⟩
                           wellFormed := trivial })]
  closing := []
  lastLine := noBlank
  distinct := by decide

/-- All three are found, the value of the second one with its continuation. -/
theorem threeForms_translated :
    (parseEnumValues asciiClasses threeForms.text).map (fun e => (e.name, e.value)) =
      [("LOW".toList, some "1".toList),
        ("MID".toList, some "static_cast<int32_t>(Mode::LOW) + 2".toList),
        ("HIGH".toList, none)] := by
  have hdeclared : threeForms.declared = [("LOW".toList, some "1".toList),
      ("MID".toList, some "static_cast<int32_t>(Mode::LOW) + 2".toList),
      ("HIGH".toList, none)] := by decide
  have hcomment : ¬(⟨space, noBlank, true, space, some ⟨[' ', '2', 'x'], by decide⟩⟩ :
      Layout asciiClasses).EndsBlock := by
    rintro ⟨comment, hc, hends⟩
    cases hc
    revert hends
    decide
  rw [← hdeclared]
  refine (translates_iff threeForms).mpr ⟨⟨⟨by decide, Or.inl rfl⟩, fun m hm => ?_⟩,
    ⟨⟨rfl, rfl, by decide, by decide, by decide⟩, fun m hm => ?_⟩, ⟨rfl, ?_⟩, trivial⟩
  · cases hm
  · rw [List.mem_singleton.mp hm]
    exact hcomment
  · rintro ⟨n, hn⟩
    cases hn

end Example

end VhalCore.AidlHeaders
