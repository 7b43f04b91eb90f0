import NominalTypes.Text.Category

/-!
# Lexemes of type text

Type text is divided into lexemes: runs of blanks, single punctuation characters, the two
keywords, identifiers, and runs of characters that can start no other lexeme. `Lexeme.scan` takes
the longest lexeme at each position, so that every character belongs to exactly one. Positions
count bytes of the UTF-8 form of the text.
-/

namespace NominalTypes

/-- The kinds of lexemes. -/
inductive LexemeKind where
  | blank
  | angleOpen
  | angleClose
  | bracketOpen
  | bracketClose
  | comma
  | dot
  | question
  | ampersand
  | extendsWord
  | superWord
  | identifier
  | garbage
deriving DecidableEq, Repr

/-- The name of a kind of lexeme in error messages. -/
def LexemeKind.describe : LexemeKind → String
  | .blank => "whitespace"
  | .angleOpen => "`<`"
  | .angleClose => "`>`"
  | .bracketOpen => "`[`"
  | .bracketClose => "`]`"
  | .comma => "`,`"
  | .dot => "`.`"
  | .question => "`?`"
  | .ampersand => "`&`"
  | .extendsWord => "`extends`"
  | .superWord => "`super`"
  | .identifier => "identifier"
  | .garbage => "unexpected characters"

/-- A piece of type text with its kind and the offset of its first byte. -/
structure Lexeme where
  kind : LexemeKind
  start : Nat
  text : String
deriving DecidableEq, Repr

namespace Lexeme

/-- The characters that separate lexemes and mean nothing themselves. -/
def isBlank (character : Char) : Bool :=
  character = ' ' || character = '\t' || character = '\r' || character = '\n'

/-- The kind of lexeme that a punctuation character is. -/
def punctuation? : Char → Option LexemeKind
  | '<' => some .angleOpen
  | '>' => some .angleClose
  | '[' => some .bracketOpen
  | ']' => some .bracketClose
  | ',' => some .comma
  | '.' => some .dot
  | '?' => some .question
  | '&' => some .ampersand
  | _ => none

/-- The characters that an identifier starts with. -/
def startsWord (character : Char) : Bool :=
  Text.isLetter character || character = '_' || character = '$'

/-- The characters that an identifier goes on with. -/
def continuesWord (character : Char) : Bool :=
  startsWord character || Text.isNumber character

/-- The characters that start no blank, punctuation or identifier. -/
def isGarbage (character : Char) : Bool :=
  !isBlank character && (punctuation? character).isNone && !startsWord character

/-- The kind of an identifier's characters: two words are keywords. -/
def wordKind (word : List Char) : LexemeKind :=
  if word = "extends".toList then .extendsWord
  else if word = "super".toList then .superWord
  else .identifier

/--
The kind of the lexeme that starts with the given character, its other characters, and what
follows.
-/
def split (first : Char) (rest : List Char) : LexemeKind × List Char × List Char :=
  if isBlank first then (.blank, rest.takeWhile isBlank, rest.dropWhile isBlank)
  else
    match punctuation? first with
    | some kind => (kind, [], rest)
    | none =>
        if startsWord first then
          (wordKind (first :: rest.takeWhile continuesWord), rest.takeWhile continuesWord,
            rest.dropWhile continuesWord)
        else (.garbage, rest.takeWhile isGarbage, rest.dropWhile isGarbage)

theorem split_append (first : Char) (rest : List Char) :
    (split first rest).2.1 ++ (split first rest).2.2 = rest := by
  unfold split
  split
  · simp
  · split
    · simp
    · split <;> simp

theorem split_length (first : Char) (rest : List Char) :
    (split first rest).2.2.length ≤ rest.length := by
  have whole := congrArg List.length (split_append first rest)
  simp only [List.length_append] at whole
  omega

/-- The lexemes of the characters, of which the first one has the given offset. -/
def scanFrom (start : Nat) : List Char → List Lexeme
  | [] => []
  | first :: rest =>
      let text := String.ofList (first :: (split first rest).2.1)
      { kind := (split first rest).1, start, text } ::
        scanFrom (start + text.utf8ByteSize) (split first rest).2.2
termination_by characters => characters.length
decreasing_by
  have shorter := split_length first rest
  simp only [List.length_cons]
  omega

/-- The lexemes of a text, blanks and garbage included. -/
def scan (text : String) : List Lexeme := scanFrom 0 text.toList

/-- The offset behind the last byte of the lexeme. -/
def stop (self : Lexeme) : Nat := self.start + self.text.utf8ByteSize

/-- The lexeme means nothing to the grammar. -/
def isTrivia (self : Lexeme) : Bool := self.kind = .blank

/-- The lexemes of a text that mean something to the grammar. -/
def significant (text : String) : List Lexeme := (scan text).filter fun lexeme => !lexeme.isTrivia

/-- The texts of the lexemes of a text are the text. -/
theorem scanFrom_text (start : Nat) (characters : List Char) :
    (scanFrom start characters).flatMap (fun lexeme => lexeme.text.toList) = characters := by
  fun_induction scanFrom start characters with
  | case1 => rfl
  | case2 start first rest text ih =>
      simp only [List.flatMap_cons, ih, text, String.toList_ofList, List.cons_append, split_append]

end Lexeme

end NominalTypes
