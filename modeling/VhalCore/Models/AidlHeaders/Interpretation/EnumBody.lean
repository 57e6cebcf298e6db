import VhalCore.Models.AidlHeaders.Native.GenerateAidlHeaders

/-!
# The body of an enum

A body has one enumerator a line, in one of three forms: a name alone, a name with a value, and a
name with a value on the next line. A value may go on in lines that begin with `+` or `|`. Every
line may end with a comma and a comment, and comments and empty lines stand between enumerators.

An enumerator is `Supported` when the script keeps it, in the place that it stands in.
-/

namespace VhalCore.AidlHeaders

variable (U : CharClasses)

/-- White space within a line. -/
def Blank : Type := { text : Text // ∀ c ∈ text, U.isSpace c = true ∧ c ≠ '\n' }

/-- A text within a line. -/
def LineText : Type := { text : Text // '\n' ∉ text }

/-- What stands on a line besides its text. -/
structure Layout where
  indent : Blank U
  gap : Blank U
  comma : Bool
  gapAfterComma : Blank U
  comment : Option LineText

namespace Layout

variable {U}

/-- The comma that ends an enumerator, where there is one. -/
def commaText (l : Layout U) : Text := if l.comma then [','] else []

/-- The gaps and the comma between the text and the comment. -/
def between (l : Layout U) : Text := l.gap.1 ++ l.commaText ++ l.gapAfterComma.1

/-- The text of a line with its indentation and its trailing comment. -/
def line (l : Layout U) (text : Text) : Text :=
  l.indent.1 ++ (text ++ (l.between ++
    match l.comment with
    | some comment => '/' :: '/' :: comment.1
    | none => []))

/-- The comment of the line ends like a block comment. -/
def EndsBlock (l : Layout U) : Prop :=
  ∃ comment, l.comment = some comment ∧ ['*', '/'] <:+ comment.1.rdropWhile U.isSpace

end Layout

/-- The names of AIDL. -/
structure IsName (name : Text) : Prop where
  nonempty : name ≠ []
  chars : ∀ c ∈ name, c.isAlphanum = true ∨ c = '_'
  first : ∀ c ∈ name.head?, c.isDigit = false

/-- The texts of value expressions: on one line, without commas and comments, and with no operator
that has no right side. -/
structure IsExpression (text : Text) : Prop where
  nonempty : text ≠ []
  chars : ∀ c ∈ text, c ≠ ',' ∧ c ≠ '\n'
  first : ∀ c ∈ text.head?, U.isSpace c = false ∧ c ≠ '/' ∧ c ≠ '*'
  last : ∀ c ∈ text.getLast?, U.isSpace c = false ∧ c ≠ '/'
  noComment : ¬['/', '/'] <:+: text ∧ ¬['/', '*'] <:+: text

/-- A line on which a value goes on. -/
structure Continuation where
  text : Text
  layout : Layout U
  isExpression : IsExpression U text
  operator : isContinuation text = true

/-- How an enumerator is laid out over its lines: the name alone, the name with its value on one
line, or the value from the next line on. -/
inductive Form where
  | name (layout : Layout U)
  | value (beforeEquals afterEquals : Blank U) (value : Text) (layout : Layout U)
      (more : List (Continuation U))
  | nextLine (beforeEquals : Blank U) (head : Layout U) (value : Text) (layout : Layout U)
      (more : List (Continuation U))

/-- The text reads as the name alone, or as the name with a value. -/
def Declares (name text : Text) : Prop :=
  text = name ∨ ∃ (gap : Blank U) (rest : Text), text = name ++ (gap.1 ++ '=' :: rest)

/-- The value of an enumerator is an expression. On a line of its own it does not read as another
declaration of the enumerator: a constant is not its own value, and is not assigned. -/
def Form.WellFormed (name : Text) : Form U → Prop
  | .name _ => True
  | .value _ _ text _ _ => IsExpression U text
  | .nextLine _ _ text _ _ => IsExpression U text ∧ ¬Declares U name text

/-- An enumerator of the body: a name and a well formed layout for it. -/
structure Enumerator where
  name : Text
  form : Form U
  isName : IsName name
  wellFormed : form.WellFormed U name

section Lines

variable {U}

/-- The texts of the lines of an enumerator, with their layouts. No comma follows an equals
sign. -/
def Form.lines (name : Text) : Form U → List (Text × Layout U)
  | .name layout => [(name, layout)]
  | .value beforeEquals afterEquals text layout more =>
      (name ++ (beforeEquals.1 ++ '=' :: (afterEquals.1 ++ text)), layout) ::
        more.map fun m => (m.text, m.layout)
  | .nextLine beforeEquals head text layout more =>
      (name ++ (beforeEquals.1 ++ ['=']), { head with comma := false }) :: (text, layout) ::
        more.map fun m => (m.text, m.layout)

/-- The continuations of a value, with the references rewritten. -/
def continued (more : List (Continuation U)) : Text :=
  more.flatMap fun m => ' ' :: rewriteReferences U m.text

/-- The value that an enumerator is declared with, the references rewritten. -/
def Form.declared : Form U → Option Text
  | .name _ => none
  | .value _ _ text _ more => some (rewriteReferences U text ++ continued more)
  | .nextLine _ _ text _ more => some (rewriteReferences U text ++ continued more)

/-- The name and the value that an enumerator declares. -/
def Enumerator.declared (e : Enumerator U) : Text × Option Text := (e.name, e.form.declared)

/-- The script keeps an enumerator of this form after another one. -/
def Form.Supported (name : Text) (last : Option (Text × Option Text)) : Form U → Prop
  | .name layout =>
      layout.comment = none ∧ ((∃ n, last = some (n, none)) → isConstantName U name = true)
  | .value _ _ text layout more =>
      ('/' ∉ text ∧ (layout.comment = none ∨ layout.comma = false ∧ ¬layout.EndsBlock)) ∧
        ∀ m ∈ more, ¬m.layout.EndsBlock
  | .nextLine _ head text layout more =>
      (head.comment = none ∧ layout.comment = none ∧ isConstantName U text = false ∧
        matchNameValue U text = none ∧ matchNameEquals U text = none) ∧
        ∀ m ∈ more, ¬m.layout.EndsBlock

end Lines

/-- What stands between the enumerators: a blank line, a line comment or a block comment. -/
inductive Comment where
  | blank (text : Blank U)
  | line (indent : Blank U) (text : LineText)
  /-- A block ends on its last line and not before. -/
  | block (indent : Blank U) (first : LineText) (inner : List (Blank U × LineText))
      (ends : ∃ (text : Text) (gap : Blank U),
        first.1 ++ inner.flatMap (fun p => '\n' :: '*' :: p.2.1) = text ++ '*' :: '/' :: gap.1 ∧
          ¬['*', '/'] <:+: text ++ ['*'])

section Body

variable {U}

/-- The lines of a comment. -/
def Comment.lines : Comment U → List Text
  | .blank text => [text.1]
  | .line indent text => [indent.1 ++ '/' :: '/' :: text.1]
  | .block indent first inner _ =>
      (indent.1 ++ '/' :: '*' :: first.1) :: inner.map fun p => p.1.1 ++ '*' :: p.2.1

/-- The lines of an enumerator. -/
def Enumerator.lines (e : Enumerator U) : List Text :=
  (e.form.lines e.name).map fun p => p.2.line p.1

end Body

/-- The names of the enumerators are distinct. The last line ends at the closing brace. -/
structure EnumBody where
  enumerators : List (List (Comment U) × Enumerator U)
  closing : List (Comment U)
  lastLine : Blank U
  distinct : (enumerators.map fun p => p.2.name).Nodup

namespace EnumBody

variable {U}

/-- The lines of a whole body. -/
def lines (body : EnumBody U) : List Text :=
  (body.enumerators.flatMap fun p => p.1.flatMap Comment.lines ++ p.2.lines) ++
    (body.closing.flatMap Comment.lines ++ [body.lastLine.1])

/-- The text between the braces of the enum. -/
def text (body : EnumBody U) : Text := ['\n'].intercalate body.lines

/-- The enumerators of the enum, with their values. -/
def declared (body : EnumBody U) : List (Text × Option Text) :=
  body.enumerators.map fun p => p.2.declared

/-- Every enumerator is supported after the one before it. -/
def SupportedFrom : Option (Text × Option Text) → List (List (Comment U) × Enumerator U) → Prop
  | _, [] => True
  | last, p :: enumerators =>
      p.2.form.Supported p.2.name last ∧ SupportedFrom (some p.2.declared) enumerators

/-- Every enumerator of the body is supported. -/
def Supported (body : EnumBody U) : Prop := SupportedFrom none body.enumerators

end EnumBody

end VhalCore.AidlHeaders
