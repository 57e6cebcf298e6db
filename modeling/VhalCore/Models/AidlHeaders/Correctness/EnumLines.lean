import VhalCore.Core.Trimming
import VhalCore.Models.AidlHeaders.Interpretation.EnumBody

/-!
# What the script makes of a line

Of the state only the enumerators found count, and of these only names and values. A line with
text becomes the text and, where there is a comment, everything up to its end, unless the comment
ends like a block. Comments and empty lines find nothing.
-/

namespace VhalCore.AidlHeaders

variable {U : CharClasses} {text : Text} {s : ParseState} {l : Layout U}

namespace CharClasses

variable (U)

@[simp] theorem isSpace_slash : U.isSpace '/' = false := by
  rw [U.space_ascii _ (by decide)]; decide

@[simp] theorem isSpace_comma : U.isSpace ',' = false := by
  rw [U.space_ascii _ (by decide)]; decide

@[simp] theorem isSpace_star : U.isSpace '*' = false := by
  rw [U.space_ascii _ (by decide)]; decide

@[simp] theorem isSpace_equals : U.isSpace '=' = false := by
  rw [U.space_ascii _ (by decide)]; decide

@[simp] theorem isWord_slash : U.isWord '/' = false := by
  rw [U.word_ascii _ (by decide)]; decide

@[simp] theorem isWord_comma : U.isWord ',' = false := by
  rw [U.word_ascii _ (by decide)]; decide

@[simp] theorem isWord_equals : U.isWord '=' = false := by
  rw [U.word_ascii _ (by decide)]; decide

@[simp] theorem isWord_plus : U.isWord '+' = false := by
  rw [U.word_ascii _ (by decide)]; decide

@[simp] theorem isWord_bar : U.isWord '|' = false := by
  rw [U.word_ascii _ (by decide)]; decide

theorem not_word_of_space {c : Char} (h : U.isSpace c = true) : U.isWord c = false := by
  cases hw : U.isWord c
  · rfl
  · simp [U.disjoint c hw] at h

end CharClasses

/-- The names and values found, the last one first. -/
def ParseState.view (s : ParseState) : List (Text × Option Text) :=
  s.results.map fun e => (e.name, e.value)

section Absorb

variable (U)

/-- A line that is a name only adds that name, without a value. -/
def absorbNameOnly (text : Text) (found : List (Text × Option Text)) :
    List (Text × Option Text) :=
  if isNameOnly U text then (text, none) :: found else found

/-- A line changes the names and values found. -/
def absorb (text : Text) (found : List (Text × Option Text)) : List (Text × Option Text) :=
  match matchNameValue U text with
  | some (name, value) => (name, some (rewriteReferences U value)) :: found
  | none =>
      match matchNameEquals U text with
      | some name => (name, none) :: found
      | none =>
          match found with
          | (name, none) :: rest =>
              if isConstantName U text then absorbNameOnly U text found
              else (name, some (rewriteReferences U (stripComma U text))) :: rest
          | (name, some value) :: rest =>
              if isContinuation text then
                let continued := rewriteReferences U (stripComma U (removeComment U text))
                (name, some (value ++ ' ' :: continued)) :: rest
              else absorbNameOnly U text found
          | [] => absorbNameOnly U text found

end Absorb

theorem parseNameOnly_view (text : Text) (s : ParseState) :
    (parseNameOnly U text s).view = absorbNameOnly U text s.view := by
  unfold parseNameOnly absorbNameOnly
  split_ifs <;> rfl

/-- What a line changes depends on the names and values found only. -/
theorem parseValueLine_view : (parseValueLine U text s).view = absorb U text s.view := by
  unfold parseValueLine absorb
  cases matchNameValue U text with
  | some match? => rfl
  | none =>
    cases matchNameEquals U text with
    | some name => rfl
    | none =>
      rcases hs : s.results with _ | ⟨⟨name, _ | value, doc⟩, results⟩
      · simpa [ParseState.view, hs] using parseNameOnly_view (U := U) text s
      · have hv : s.view = (name, none) :: results.map fun e => (e.name, e.value) := by
          simp [ParseState.view, hs]
        simp only [hv]
        split_ifs
        · rw [parseNameOnly_view, hv]
        · rfl
      · have hv : s.view = (name, some value) :: results.map fun e => (e.name, e.value) := by
          simp [ParseState.view, hs]
        simp only [hv]
        split_ifs
        · rfl
        · rw [parseNameOnly_view, hv]

/-- The text of a line: it begins and ends with it, and is no comment. -/
structure IsLineText (U : CharClasses) (text : Text) : Prop where
  nonempty : text ≠ []
  first : ∀ c ∈ text.head?, U.isSpace c = false ∧ c ≠ '/' ∧ c ≠ '*'
  last : ∀ c ∈ text.getLast?, U.isSpace c = false ∧ c ≠ '/' ∧ c ≠ ','

namespace Layout

/-- What is left after the text when the line is stripped. -/
def stripped (l : Layout U) : Text :=
  match l.comment with
  | some comment => l.between ++ '/' :: '/' :: comment.1.rdropWhile U.isSpace
  | none => if l.comma then l.gap.1 ++ [','] else []

/-- What is left after the text when the commas are removed, too. -/
def trailing (l : Layout U) : Text :=
  match l.comment with
  | some comment =>
      l.between ++ '/' :: '/' ::
        ((comment.1.rdropWhile U.isSpace).rdropWhile (· = ',')).rdropWhile U.isSpace
  | none => []

end Layout

theorem blank_space (b : Blank U) : ∀ c ∈ b.1, U.isSpace c = true := fun c hc => (b.2 c hc).1

/-- Stripping a line leaves its text, the comma and the comment. -/
theorem strip_line (h : IsLineText U text) : strip U (l.line text) = text ++ l.stripped := by
  obtain ⟨c, rest, rfl⟩ := List.exists_cons_of_ne_nil h.nonempty
  have hlast : ∀ x ∈ (c :: rest).getLast?, U.isSpace x = false := fun x hx => (h.last x hx).1
  rw [Layout.line, strip, dropWhile_append_of_head (blank_space l.indent)
    (by simpa using (h.first c rfl).1), rdropWhile_append_of_last hlast]
  congr 1
  unfold Layout.stripped
  cases l.comment with
  | some comment =>
    have := rdropWhile_append_of_last (p := U.isSpace) (a := l.between ++ ['/', '/'])
      (b := comment.1) (by simp)
    simpa using this
  | none =>
    have hgap := rdropWhile_append_of_all (a := l.gap.1 ++ l.commaText)
      (blank_space l.gapAfterComma)
    rw [List.append_nil, Layout.between, hgap, Layout.commaText]
    split_ifs with hc
    · exact List.rdropWhile_concat_neg _ _ _ (by simp)
    · simpa [List.rdropWhile_eq_nil_iff] using blank_space l.gap

/-- Only what follows a text is trimmed. -/
theorem stripComma_append {a b : Text} (hne : a ≠ [])
    (first : ∀ c ∈ a.head?, U.isSpace c = false)
    (last : ∀ c ∈ a.getLast?, U.isSpace c = false ∧ c ≠ ',') :
    stripComma U (a ++ b) = a ++ (b.rdropWhile (· = ',')).rdropWhile U.isSpace := by
  have hcomma : ∀ x ∈ a.getLast?, decide (x = ',') = false := fun x hx => by
    simpa using (last x hx).2
  rw [stripComma, rdropWhile_append_of_last hcomma, strip, dropWhile_of_head,
    rdropWhile_append_of_last fun x hx => (last x hx).1]
  rwa [List.head?_append_of_ne_nil _ hne]

/-- Without its comma, a line is its text and what trails it. -/
theorem stripComma_stripped (h : IsLineText U text) :
    stripComma U (text ++ l.stripped) = text ++ l.trailing := by
  rw [stripComma_append h.nonempty (fun c hc => (h.first c hc).1)
    fun c hc => ⟨(h.last c hc).1, (h.last c hc).2.2⟩]
  congr 1
  unfold Layout.stripped Layout.trailing
  cases l.comment with
  | some comment =>
    have hc := rdropWhile_append_of_last (p := (· = ',')) (a := l.between ++ ['/', '/'])
      (b := comment.1.rdropWhile U.isSpace) (by simp)
    have hs := rdropWhile_append_of_last (p := U.isSpace) (a := l.between ++ ['/', '/'])
      (b := (comment.1.rdropWhile U.isSpace).rdropWhile (· = ',')) (by simp)
    simp only [List.append_assoc, List.cons_append, List.nil_append] at hc hs
    rw [hc, hs]
  | none =>
    dsimp only
    split_ifs with hc
    · rw [List.rdropWhile_concat_pos _ _ _ (by simp), List.rdropWhile_eq_nil_iff]
      exact fun x hx => blank_space l.gap x ((List.rdropWhile_prefix _ _).subset hx)
    · simp

/-- The line ends like a block exactly where its comment does. -/
theorem endsBlock_iff (h : IsLineText U text) :
    ['*', '/'] <:+ text ++ l.stripped ↔ l.EndsBlock := by
  have hlast : ¬['*', '/'] <:+ text := fun ⟨a, ha⟩ => by
    simpa using (h.last '/' (by simp [← ha])).2.1
  unfold Layout.stripped Layout.EndsBlock
  cases l.comment with
  | some comment =>
    simp only [Option.some.injEq, exists_eq_left']
    rw [← List.reverse_prefix, ← List.reverse_prefix]
    rcases hr : (comment.1.rdropWhile U.isSpace).reverse with _ | ⟨c, _ | ⟨d, rest⟩⟩ <;>
      simp [hr]
  | none =>
    dsimp only
    split_ifs
    · rw [← List.append_assoc, ← List.reverse_prefix]
      simp
    · simpa using hlast

/-- A line with text that does not end like a block is read as this text. -/
theorem parseLine_view (h : IsLineText U text) (he : ¬l.EndsBlock) :
    (parseLine U s (l.line text)).view = absorb U (text ++ l.trailing) s.view := by
  have hne : text ++ l.stripped ≠ [] := by simp [h.nonempty]
  have hraw : text ++ l.trailing ≠ [] := by simp [h.nonempty]
  have hends := mt (endsBlock_iff h).1 he
  obtain ⟨c, rest, rfl⟩ := List.exists_cons_of_ne_nil h.nonempty
  obtain ⟨-, hslash, hstar⟩ := h.first c rfl
  unfold parseLine
  simp only [strip_line h, stripComma_stripped h, if_neg hne, if_neg hends, if_neg hraw]
  simp [parseValueLine_view, Ne.symm hslash, Ne.symm hstar]

/-- A line that ends like a block finds nothing. -/
theorem parseLine_endsBlock (h : IsLineText U text) (he : l.EndsBlock) :
    (parseLine U s (l.line text)).view = s.view := by
  have hne : text ++ l.stripped ≠ [] := by simp [h.nonempty]
  have hends := (endsBlock_iff h).2 he
  obtain ⟨c, rest, rfl⟩ := List.exists_cons_of_ne_nil h.nonempty
  obtain ⟨-, hslash, hstar⟩ := h.first c rfl
  unfold parseLine
  simp only [strip_line h, if_neg hne, if_pos hends]
  simp only [List.cons_append, List.cons_prefix_cons, Ne.symm hslash, Ne.symm hstar, false_and,
    if_false]
  split_ifs <;> rfl

section Comments

/-- A comment line finds nothing. -/
theorem parseLine_lineComment (indent : Blank U) (comment : Text) :
    (parseLine U s (indent.1 ++ '/' :: '/' :: comment)).view = s.view := by
  have hstrip : strip U (indent.1 ++ '/' :: '/' :: comment) =
      '/' :: '/' :: comment.rdropWhile U.isSpace := by
    rw [strip, dropWhile_append_of_head (blank_space indent) (by simp)]
    simpa using rdropWhile_append_of_last (p := U.isSpace) (a := ['/', '/']) (b := comment)
      (by simp)
  unfold parseLine
  simp only [hstrip]
  split_ifs <;> simp_all [ParseState.view]

/-- The first line of a block begins a new comment. -/
theorem parseLine_blockStart (indent : Blank U) (comment : Text) :
    (parseLine U s (indent.1 ++ '/' :: '*' :: comment)).view = s.view ∧
      (parseLine U s (indent.1 ++ '/' :: '*' :: comment)).pendingComment ≠ [] := by
  have hstrip : strip U (indent.1 ++ '/' :: '*' :: comment) =
      '/' :: '*' :: comment.rdropWhile U.isSpace := by
    rw [strip, dropWhile_append_of_head (blank_space indent) (by simp)]
    simpa using rdropWhile_append_of_last (p := U.isSpace) (a := ['/', '*']) (b := comment)
      (by simp)
  simp [parseLine, hstrip, ParseState.view]

/-- A further line of a block belongs to its comment. -/
theorem parseLine_blockLine (hs : s.pendingComment ≠ []) (indent : Blank U) (comment : Text) :
    (parseLine U s (indent.1 ++ '*' :: comment)).view = s.view ∧
      (parseLine U s (indent.1 ++ '*' :: comment)).pendingComment ≠ [] := by
  have hstrip : strip U (indent.1 ++ '*' :: comment) =
      '*' :: comment.rdropWhile U.isSpace := by
    rw [strip, dropWhile_append_of_head (blank_space indent) (by simp)]
    simpa using rdropWhile_append_of_last (p := U.isSpace) (a := ['*']) (b := comment) (by simp)
  simp [parseLine, hstrip, ParseState.view, hs]

theorem parseLine_blank (b : Blank U) : parseLine U s b.1 = s := by
  have hstrip : strip U b.1 = [] := by
    rw [strip, List.dropWhile_eq_nil_iff.2 (blank_space b), List.rdropWhile_nil]
  simp [parseLine, hstrip]

/-- The lines of a comment find nothing. -/
theorem comment_view (comment : Comment U) :
    (comment.lines.foldl (parseLine U) s).view = s.view := by
  cases comment with
  | blank b => exact congrArg ParseState.view (parseLine_blank b)
  | line indent comment => exact parseLine_lineComment indent comment.1
  | block indent first inner ends =>
    have hinner : ∀ (lines : List (Blank U × LineText)) (t : ParseState), t.pendingComment ≠ [] →
        ((lines.map fun p => p.1.1 ++ '*' :: p.2.1).foldl (parseLine U) t).view = t.view := by
      intro lines
      induction lines with
      | nil => exact fun t ht => rfl
      | cons p lines ih =>
        intro t ht
        obtain ⟨hview, hpending⟩ := parseLine_blockLine ht p.1 p.2.1
        exact (ih _ hpending).trans hview
    obtain ⟨hview, hpending⟩ := parseLine_blockStart (s := s) indent first.1
    exact (hinner inner _ hpending).trans hview

/-- Comments change none of the names and values found. -/
theorem comments_view (comments : List (Comment U)) :
    ((comments.flatMap Comment.lines).foldl (parseLine U) s).view = s.view := by
  induction comments generalizing s with
  | nil => rfl
  | cons comment comments ih =>
    rw [List.flatMap_cons, List.foldl_append, ih, comment_view]

end Comments

end VhalCore.AidlHeaders
