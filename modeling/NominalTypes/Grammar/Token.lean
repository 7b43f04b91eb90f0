import NominalTypes.Grammar.Lexeme

/-!
# Tokens of type text

The lexemes are given by rules. A rule is a kind with the shape of its texts: the punctuation
characters and the keywords are written out, blanks and identifiers have a character that they start
with and characters that they go on with. At each place the rule with the longest text matches, and
of rules with equally long texts the first one, so that keywords come before identifiers. Where no
rule matches there is a failure of one character.

Failures behind each other make one token. The lexer holds back where the first of them starts,
until a rule matches or the text ends. Its tokens are without text: they have the offset of their
first byte and that of the byte behind their last one.
-/

namespace NominalTypes

/-- The shape of the texts of a rule. -/
inductive TextShape where
  | literal (text : List Char)
  | run (starts continues : Char → Bool)

/-- The number of characters in the longest text of the shape that the characters begin with. -/
def TextShape.extent : TextShape → List Char → Nat
  | .literal text, characters => if text.isPrefixOf characters then text.length else 0
  | .run _ _, [] => 0
  | .run starts continues, first :: rest =>
      if starts first then (rest.takeWhile continues).length + 1 else 0

/-- A kind of lexemes with the shape of their texts. -/
structure LexicalRule where
  kind : LexemeKind
  shape : TextShape

/-- The rules for the lexemes of type text. -/
def lexicalRules : List LexicalRule :=
  [⟨.blank, .run Lexeme.isBlank Lexeme.isBlank⟩,
   ⟨.angleOpen, .literal ['<']⟩,
   ⟨.angleClose, .literal ['>']⟩,
   ⟨.bracketOpen, .literal ['[']⟩,
   ⟨.bracketClose, .literal [']']⟩,
   ⟨.comma, .literal [',']⟩,
   ⟨.dot, .literal ['.']⟩,
   ⟨.question, .literal ['?']⟩,
   ⟨.ampersand, .literal ['&']⟩,
   ⟨.extendsWord, .literal "extends".toList⟩,
   ⟨.superWord, .literal "super".toList⟩,
   ⟨.identifier, .run Lexeme.startsWord Lexeme.continuesWord⟩]

/-- The better one of a match and what a rule has at the characters: the longer, else the earlier. -/
def LexicalRule.improve (characters : List Char) (best : Option LexemeKind × Nat)
    (rule : LexicalRule) : Option LexemeKind × Nat :=
  if best.2 < rule.shape.extent characters then (some rule.kind, rule.shape.extent characters)
  else best

/--
The kind of the rule that matches at the characters, and the length of its text: none and zero
where there is no match.
-/
def longestMatch (rules : List LexicalRule) (characters : List Char) : Option LexemeKind × Nat :=
  rules.foldl (LexicalRule.improve characters) (none, 0)

/-- What is found at a place of a text: a match of a rule or, without kind, a failure. -/
structure RawToken where
  kind? : Option LexemeKind
  start : Nat
  stop : Nat
deriving DecidableEq, Repr

/-- What the rules find in the characters, of which the first one has the given offset. -/
def rawTokens (start : Nat) : List Char → List RawToken
  | [] => []
  | first :: rest =>
      let found := longestMatch lexicalRules (first :: rest)
      let text := String.ofList (first :: rest.take (found.2 - 1))
      ⟨found.1, start, start + text.utf8ByteSize⟩ ::
        rawTokens (start + text.utf8ByteSize) (rest.drop (found.2 - 1))
termination_by characters => characters.length
decreasing_by
  simp only [List.length_drop, List.length_cons]
  omega

/-- A kind of lexeme with the offsets of its first byte and of the byte behind its last one. -/
structure Token where
  kind : LexemeKind
  start : Nat
  stop : Nat
deriving DecidableEq, Repr

/-- The lexeme without its text. -/
def Lexeme.token (self : Lexeme) : Token := ⟨self.kind, self.start, self.stop⟩

/-- The tokens found so far, and where the failures start that are held back. -/
structure Lexing where
  tokens : List Token := []
  garbageStart : Option Nat := none

namespace Lexing

/-- Makes one token of the failures that are held back, if there are any. -/
def flush (self : Lexing) (stop : Nat) : Lexing :=
  match self.garbageStart with
  | some start => { tokens := self.tokens ++ [⟨.garbage, start, stop⟩] }
  | none => self

/-- Adds a token at the end. -/
def push (self : Lexing) (token : Token) : Lexing := { self with tokens := self.tokens ++ [token] }

/--
Goes on with what is found next. A match follows the failures that are held back; a failure is held
back itself, and only the first one tells where they start.
-/
def add (self : Lexing) (found : RawToken) : Lexing :=
  match found.kind? with
  | some kind => (self.flush found.start).push ⟨kind, found.start, found.stop⟩
  | none =>
      if self.garbageStart.isNone then { self with garbageStart := some found.start } else self

end Lexing

/-- The tokens of a text, blanks and garbage included. -/
def lex (text : String) : List Token :=
  (((rawTokens 0 text.toList).foldl Lexing.add {}).flush text.utf8ByteSize).tokens

end NominalTypes
