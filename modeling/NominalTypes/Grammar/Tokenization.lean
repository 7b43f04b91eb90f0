import NominalTypes.Grammar.Lexeme

/-!
# What a division of text into lexemes is

A tokenization of a text is a sequence of lexemes that cover it without gap or overlap, each of the
shape of its kind, where no lexeme is followed by a character that would lengthen it. Nothing is
said here about how one is found.
-/

namespace NominalTypes

namespace Lexeme

/-- The characters of the lexeme. -/
def characters (self : Lexeme) : List Char := self.text.toList

/-- The characters are a word: a character that starts words, and some that continue them. -/
def IsWord (characters : List Char) : Prop :=
  ∃ first rest, characters = first :: rest ∧ startsWord first = true ∧
    ∀ character ∈ rest, continuesWord character = true

/-- The characters are one or more of a class. -/
def IsRun (belongs : Char → Bool) (characters : List Char) : Prop :=
  characters ≠ [] ∧ ∀ character ∈ characters, belongs character = true

/-- The text of the lexeme has the shape of its kind. -/
def HasShape (self : Lexeme) : Prop :=
  match self.kind with
  | .blank => IsRun isBlank self.characters
  | .garbage => IsRun isGarbage self.characters
  | .extendsWord => self.text = "extends"
  | .superWord => self.text = "super"
  | .identifier => IsWord self.characters ∧ self.text ≠ "extends" ∧ self.text ≠ "super"
  | kind => ∃ character, self.characters = [character] ∧ punctuation? character = some kind

/-- A lexeme of the kind would be longer with the character behind it. -/
def lengthens : LexemeKind → Char → Bool
  | .blank, character => isBlank character
  | .garbage, character => isGarbage character
  | .extendsWord, character | .superWord, character | .identifier, character =>
      continuesWord character
  | _, _ => false

/-- The text is what stands before the lexeme, the lexeme at its offset, and what is behind it. -/
def Divides (self : Lexeme) (text before behind : String) : Prop :=
  text = before ++ self.text ++ behind ∧ before.utf8ByteSize = self.start

/--
The lexeme is a piece of the text, between two of its characters or at its ends, has the shape of
its kind, and would not be longer with the character behind it.
-/
structure IsPieceOf (self : Lexeme) (text : String) : Prop where
  placed : ∃ before behind, self.Divides text before behind
  nonempty : self.start < self.stop
  shaped : self.HasShape
  maximal : ∀ before behind, self.Divides text before behind →
    ∀ character ∈ behind.toList.head?, lengthens self.kind character = false

/-- The lexemes lie one behind the other from the start to the end. -/
def AreAdjacent (start stop : Nat) : List Lexeme → Prop
  | [] => start = stop
  | first :: rest => first.start = start ∧ AreAdjacent first.stop stop rest

end Lexeme

/-- The lexemes divide the text. -/
structure IsTokenization (text : String) (lexemes : List Lexeme) : Prop where
  pieces : ∀ lexeme ∈ lexemes, lexeme.IsPieceOf text
  adjacent : Lexeme.AreAdjacent 0 text.utf8ByteSize lexemes

end NominalTypes
