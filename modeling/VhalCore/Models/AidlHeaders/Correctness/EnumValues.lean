import VhalCore.Models.AidlHeaders.Correctness.EnumEffects

/-!
# The values of the enumerators

The lines on which a value goes on are read one after the other. A value that has fallen behind
its text, because a line was dropped, because a comment was kept in it or because it began empty,
never catches up.
-/

namespace VhalCore.AidlHeaders

variable {U : CharClasses} {n text value : Text} {l : Layout U} {s : ParseState}
  {rest : List (Text × Option Text)} {more : List (Continuation U)}

/-- The lines of the continuations. -/
def continuationLines (more : List (Continuation U)) : List Text :=
  more.map fun m => m.layout.line m.text

/-- A line with text is read as this text or not at all. -/
theorem parseLine_cases (h : IsLineText U text) :
    (parseLine U s (l.line text)).view = s.view ∨
      (parseLine U s (l.line text)).view = absorb U (text ++ l.trailing) s.view := by
  by_cases he : l.EndsBlock
  · exact .inl (parseLine_endsBlock h he)
  · exact .inr (parseLine_view h he)

/-- A continuation changes at most the value found last. -/
theorem continuation_touched (m : Continuation U) (s : ParseState) :
    Touched s.view (parseLine U s (m.layout.line m.text)).view := by
  rcases parseLine_cases (l := m.layout) (s := s) m.isExpression.lineText with h | h
  · rw [h]
    exact .refl _
  · rw [h]
    rcases hv : s.view with _ | ⟨⟨n, _ | v⟩, rest⟩
    · rw [absorb_continuation_nil]
      exact .refl _
    · rw [absorb_continuation_none]
      exact .cons ..
    · rw [absorb_continuation]
      exact .cons ..

theorem continuations_touched (more : List (Continuation U)) (s : ParseState) :
    Touched s.view ((continuationLines more).foldl (parseLine U) s).view := by
  induction more generalizing s with
  | nil => exact .refl _
  | cons m more ih => exact (continuation_touched m s).trans (ih _)

theorem continued_cons (m : Continuation U) (more : List (Continuation U)) :
    continued (m :: more) = ' ' :: rewriteReferences U m.text ++ continued more := by
  simp [continued]

/-- Every line is added to the value. -/
theorem continuations_view (h : ∀ m ∈ more, ¬m.layout.EndsBlock)
    (hs : s.view = (n, some value) :: rest) :
    ((continuationLines more).foldl (parseLine U) s).view =
      (n, some (value ++ continued more)) :: rest := by
  induction more generalizing s value with
  | nil => simpa [continuationLines, continued] using hs
  | cons m more ih =>
    have hm : (parseLine U s (m.layout.line m.text)).view =
        (n, some (value ++ ' ' :: rewriteReferences U m.text)) :: rest := by
      rw [parseLine_view m.isExpression.lineText (h m (by simp)), hs, absorb_continuation]
    have hrest := ih (fun m' hm' => h m' (by simp [hm'])) hm
    rw [continued_cons, ← List.append_assoc]
    exact hrest

/-- What is found of a value is not the text that it has. -/
def Behind (text : Text) : Option Text → Prop
  | none => True
  | some value => beforeComment value ≠ none ∨ value.length < text.length ∨ value.head? = some ' '

/-- One more line does not help. -/
theorem continuation_behind (m : Continuation U) {found : Option Text}
    (hs : s.view = (n, found) :: rest) (hb : Behind text found) :
    ∃ found', (parseLine U s (m.layout.line m.text)).view = (n, found') :: rest ∧
      Behind (text ++ ' ' :: rewriteReferences U m.text) found' := by
  by_cases he : m.layout.EndsBlock
  · refine ⟨found, (parseLine_endsBlock m.isExpression.lineText he).trans hs, ?_⟩
    cases found with
    | none => trivial
    | some value =>
      refine hb.imp_right (.imp_left fun hlt => ?_)
      simp only [List.length_append]
      omega
  · have hview := parseLine_view (s := s) m.isExpression.lineText he
    rw [hs] at hview
    cases found with
    | none =>
      refine ⟨_, hview.trans (absorb_continuation_none m), ?_⟩
      by_cases hl : m.layout.comment = none
      · rw [Layout.trailing_of_none hl, List.append_nil, stripComma_text m.isExpression.lineText]
        refine .inr (.inl ?_)
        simp only [List.length_append, List.length_cons]
        omega
      · exact .inl (mt rewriteReferences_noComment.1
          (stripComma_comment m.isExpression.lineText hl))
    | some value =>
      refine ⟨_, hview.trans (absorb_continuation m), ?_⟩
      rcases hb with hb | hb | hb
      · left
        rw [Ne, beforeComment_eq_none_iff, not_not] at hb ⊢
        exact hb.trans (List.prefix_append ..).isInfix
      · right; left
        simp only [List.length_append]
        omega
      · right; right
        cases value with
        | nil => rfl
        | cons c value => exact hb

/-- Continuations do not help either. -/
theorem continuations_behind (more : List (Continuation U)) {found : Option Text}
    (hs : s.view = (n, found) :: rest)
    (hb : Behind text found) :
    ∃ found', ((continuationLines more).foldl (parseLine U) s).view = (n, found') :: rest ∧
      Behind (text ++ continued more) found' := by
  induction more generalizing s text found with
  | nil => exact ⟨found, hs, by simpa [continued] using hb⟩
  | cons m more ih =>
    obtain ⟨found', hs', hb'⟩ := continuation_behind m hs hb
    rw [continued_cons, ← List.append_assoc]
    exact ih hs' hb'

/-- A line that is dropped is missing. -/
theorem continuations_dropped (hs : s.view = (n, some text) :: rest)
    (hd : ∃ m ∈ more, m.layout.EndsBlock) :
    ∃ found', ((continuationLines more).foldl (parseLine U) s).view = (n, found') :: rest ∧
      Behind (text ++ continued more) found' := by
  induction more generalizing s text with
  | nil => simp at hd
  | cons m more ih =>
    rw [continued_cons, ← List.append_assoc]
    by_cases he : m.layout.EndsBlock
    · have hview := parseLine_endsBlock (s := s) m.isExpression.lineText he
      refine continuations_behind more (hview.trans hs) ?_
      refine .inr (.inl ?_)
      simp
    · have hview := parseLine_view (s := s) m.isExpression.lineText he
      rw [hs, absorb_continuation] at hview
      refine ih hview ?_
      obtain ⟨m', hm', he'⟩ := hd
      rcases List.mem_cons.1 hm' with rfl | hm'
      · exact absurd he' he
      · exact ⟨m', hm', he'⟩

/-- The text of the continuations holds no comment. -/
theorem continued_noComment (more : List (Continuation U)) :
    beforeComment (continued more) = none := by
  induction more with
  | nil => rfl
  | cons m more ih =>
    have hhead : (continued more).head? ≠ some '/' := by
      cases more with
      | nil => simp [continued]
      | cons m' more => simp [continued_cons]
    have hm : beforeComment (' ' :: rewriteReferences U m.text) = none :=
      beforeComment_cons_eq_none.2
        ⟨by simp, rewriteReferences_noComment.2 m.isExpression.beforeComment⟩
    rw [continued_cons]
    exact (beforeComment_append_eq_none fun _ => hhead).2 ⟨hm, ih⟩

/-- A rewritten expression does not begin with a space. -/
theorem rewritten_head (hv : IsExpression U value) :
    rewriteReferences U value ≠ [] ∧ (rewriteReferences U value).head? ≠ some ' ' := by
  have hspace : U.isSpace ' ' = true := by
    rw [U.space_ascii _ (by decide)]
    decide
  refine rewriteReferences_head hv.nonempty fun c hc he => ?_
  simpa [he, hspace] using (hv.first c hc).1

/-- A value that is behind its text is another one. -/
theorem Behind.ne {found : Option Text} (hv : IsExpression U value)
    (hb : Behind (rewriteReferences U value ++ continued more) found) :
    found ≠ some (rewriteReferences U value ++ continued more) := by
  rintro rfl
  obtain ⟨hne, hhead⟩ := rewritten_head hv
  rcases hb with hb | hb | hb
  · refine hb ((beforeComment_append_eq_none fun _ => ?_).2
      ⟨rewriteReferences_noComment.2 hv.beforeComment, continued_noComment more⟩)
    cases more with
    | nil => simp [continued]
    | cons m more => simp [continued_cons]
  · omega
  · rw [List.head?_append_of_ne_nil _ hne] at hb
    exact hhead hb

end VhalCore.AidlHeaders
