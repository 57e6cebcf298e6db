import Mathlib.Data.List.DropRight
import Mathlib.Data.String.Basic

/-!
# The enums of the generated headers

The script reads the body of an enum line by line. A comment is kept for the next enumerator; any
other line is matched with regular expressions, one after the other, and belongs to the
enumerator that was found last if it begins none. Each expression is a function on the text here.

The classes `\s` and `\w` of the expressions are those of Unicode. What is used of them is what
they are on ASCII, and that no character is in both.
-/

namespace VhalCore.AidlHeaders

/-- A text of the script, as its characters. -/
abbrev Text := List Char

/-- The classes of the characters. -/
structure CharClasses where
  isSpace : Char → Bool
  isWord : Char → Bool
  space_ascii : ∀ c : Char, c.toNat < 128 →
    isSpace c = (c.toNat = 32 || (9 ≤ c.toNat && c.toNat ≤ 13) || (28 ≤ c.toNat && c.toNat ≤ 31))
  word_ascii : ∀ c : Char, c.toNat < 128 → isWord c = (c.isAlphanum || c = '_')
  disjoint : ∀ c, isWord c = true → isSpace c = false

/-- An enumerator that is found: its name, the text of its value and its comment. -/
structure Enumeration where
  name : Text
  value : Option Text
  doc : Text
  deriving DecidableEq

/-- The enumerators found so far, the last one first, and the comment for the next one. -/
structure ParseState where
  results : List Enumeration := []
  pendingComment : List Text := []

/-- The class `[A-Z_]`. -/
def isUpperOrUnderscore (c : Char) : Bool := c.isUpper || c = '_'

/-- The characters of `[A-Z0-9_]`. -/
def isConstantChar (c : Char) : Bool := c.isUpper || c.isDigit || c = '_'

section Expressions

variable (U : CharClasses)

/-- The `strip` of the script: no blank at either end. -/
def strip (text : Text) : Text := (text.dropWhile U.isSpace).rdropWhile U.isSpace

/-- The match of `([A-Z]\w+)\.([A-Z_][A-Z0-9_]*)` at the beginning of a text: the two groups and
the text after them. -/
def matchReference : Text → Option (Text × Text × Text)
  | [] => none
  | c :: text =>
      let word := text.takeWhile U.isWord
      match text.dropWhile U.isWord with
      | '.' :: d :: rest =>
          if c.isUpper ∧ word ≠ [] ∧ isUpperOrUnderscore d then
            some (c :: word, d :: rest.takeWhile isConstantChar, rest.dropWhile isConstantChar)
          else none
      | _ => none

/-- The substitution of the matches, for a text of at most some length. -/
def rewriteUpTo : Nat → Text → Text
  | 0, text => text
  | _ + 1, [] => []
  | n + 1, c :: text =>
      match matchReference U (c :: text) with
      | some (enum, constant, rest) =>
          "static_cast<int32_t>(".toList ++ enum ++ "::".toList ++ constant ++ ")".toList ++
            rewriteUpTo n rest
      | none => c :: rewriteUpTo n text

/-- `re.sub` of the references to the constants of other enums. -/
def rewriteReferences (text : Text) : Text := rewriteUpTo U text.length text

/-- The name and what follows the equals sign after it, `^(\w+)\s*=`. -/
def matchAssignment (text : Text) : Option (Text × Text) :=
  match (text.dropWhile U.isWord).dropWhile U.isSpace with
  | '=' :: rest =>
      if text.takeWhile U.isWord = [] then none else some (text.takeWhile U.isWord, rest)
  | _ => none

/-- The characters of `[^,/\n]`. -/
def isValueChar (c : Char) : Bool := c ≠ ',' && c ≠ '/' && c ≠ '\n'

/-- `^(\w+)\s*=\s*([^,/\n]+?)(?:\s*//.*)?$`, the groups stripped. -/
def matchNameValue (text : Text) : Option (Text × Text) :=
  match matchAssignment U text with
  | none => none
  | some (name, rest) =>
      let value := rest.takeWhile isValueChar
      let tail := rest.dropWhile isValueChar
      if value ≠ [] ∧ (tail = [] ∨ ['/', '/'] <+: tail) then some (name, strip U value) else none

/-- `^(\w+)\s*=$` -/
def matchNameEquals (text : Text) : Option Text :=
  match matchAssignment U text with
  | some (name, []) => some name
  | _ => none

/-- `^[A-Z_][A-Z0-9_]*\s*$` -/
def isConstantName : Text → Bool
  | [] => false
  | c :: text => isUpperOrUnderscore c && (text.dropWhile isConstantChar).all U.isSpace

/-- `^[+|]` -/
def isContinuation : Text → Bool
  | c :: _ => c = '+' || c = '|'
  | [] => false

/-- `^\w+$` -/
def isNameOnly (text : Text) : Bool := text ≠ [] && text.all U.isWord

/-- The text before the first `//`. -/
def beforeComment : Text → Option Text
  | [] => none
  | c :: text =>
      if ['/', '/'] <+: c :: text then some [] else (beforeComment text).map (c :: ·)

/-- `re.sub` of `\s*//.*$` by nothing. -/
def removeComment (text : Text) : Text :=
  match beforeComment text with
  | some before => before.rdropWhile U.isSpace
  | none => text

/-- `rstrip(",").strip()` -/
def stripComma (text : Text) : Text := strip U (text.rdropWhile (· = ','))

end Expressions

section Lines

variable (U : CharClasses)

/-- `" ".join(pending_comment)` -/
def joinComment (pendingComment : List Text) : Text := [' '].intercalate pendingComment

/-- One more enumerator is found. -/
def ParseState.found (name : Text) (value : Option Text) (s : ParseState) : ParseState where
  results := ⟨name, value, joinComment s.pendingComment⟩ :: s.results
  pendingComment := []

/-- The branch for a line that is a name only. -/
def parseNameOnly (text : Text) (s : ParseState) : ParseState :=
  if isNameOnly U text then s.found text none else s

/-- A line that is not a comment, without its comma. -/
def parseValueLine (text : Text) (s : ParseState) : ParseState :=
  match matchNameValue U text with
  | some (name, value) => s.found name (some (rewriteReferences U value))
  | none =>
      match matchNameEquals U text with
      | some name => s.found name none
      | none =>
          match s.results with
          | ⟨name, none, doc⟩ :: results =>
              if isConstantName U text then parseNameOnly U text s
              else { s with
                results := ⟨name, some (rewriteReferences U (stripComma U text)), doc⟩ :: results }
          | ⟨name, some value, doc⟩ :: results =>
              if isContinuation text then
                let continued := rewriteReferences U (stripComma U (removeComment U text))
                { s with results := ⟨name, some (value ++ ' ' :: continued), doc⟩ :: results }
              else parseNameOnly U text s
          | [] => parseNameOnly U text s

/-- One turn of the loop over the lines of the body. -/
def parseLine (s : ParseState) (line : Text) : ParseState :=
  let stripped := strip U line
  if stripped = [] then s
  else if ['/', '*'] <+: stripped then { s with pendingComment := [stripped] }
  else if ['*'] <+: stripped ∧ s.pendingComment ≠ [] then
    { s with pendingComment := s.pendingComment ++ [stripped] }
  else if ['*', '/'] <:+ stripped then
    if s.pendingComment ≠ [] then { s with pendingComment := s.pendingComment ++ [stripped] }
    else s
  else if ['/', '/'] <+: stripped then
    { s with pendingComment := s.pendingComment ++ [stripped] }
  else if stripComma U stripped = [] then s
  else parseValueLine U (stripComma U stripped) s

/-- The enumerators of the body of an enum, in the order in which they are found. -/
def parseEnumValues (block : Text) : List Enumeration :=
  ((block.splitOn '\n').foldl (parseLine U) {}).results.reverse

end Lines

/-- The line of the generated enum for an enumerator. -/
def enumeratorLine (name : Text) : Option Text → Text
  | some value => "    ".toList ++ name ++ " = ".toList ++ value ++ ",".toList
  | none => "    ".toList ++ name ++ ",".toList

end VhalCore.AidlHeaders
