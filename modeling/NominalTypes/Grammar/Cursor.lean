import NominalTypes.Grammar.Parser

/-!
# Reading type text with a cursor

The grammar of type text can also be read by moving a cursor over all lexemes of the text, blanks
included. The cursor has a position, which only counts up, and a counter of the nesting levels that are
entered, a word of 32 bits that each call for a type or a bound counts up and down again. A reading
goes on in the state that a failed part leaves behind, so that the counter is restored there as well.

The cursor keeps the places that it has passed and the calls that have returned. An interruption is no
error about types: a counter has left its range, or the reading has used up the steps it was given.
-/

namespace NominalTypes

/-- The number of lexemes that a reading has passed, and of the nesting levels that it has entered. -/
structure Place where
  position : Nat
  level : UInt32
deriving DecidableEq, Repr

/-- A call for a type or a bound, with the places where it began and where it returned. -/
structure ReadingCall where
  entry : Place
  exit : Place
  succeeded : Bool
deriving DecidableEq, Repr

/-- Where a reading stands, the places where it stood before, and the calls that have returned. -/
structure Cursor where
  place : Place := ⟨0, 0⟩
  earlier : List Place := []
  calls : List ReadingCall := []
deriving DecidableEq, Repr

/-- The reasons why a reading can have neither a result nor an error. -/
inductive Interruption where
  | stepsUsedUp
  | levelOverflow
  | levelUnderflow
deriving DecidableEq, Repr

/-- All places of a reading in order, the present one last. -/
def Cursor.trail (self : Cursor) : List Place := self.earlier ++ [self.place]

/-- A part of a reading: an error leaves the cursor where it was found. -/
abbrev CursorReader := ExceptT TypeError (StateT Cursor (Except Interruption))

namespace CursorReader

/-- What comes of reading from a cursor. -/
def runAt {result : Type} (self : CursorReader result) (cursor : Cursor) :
    Except Interruption (Except TypeError result × Cursor) :=
  (ExceptT.run self).run cursor

/-- Ends the reading. -/
def interrupt {result : Type} (cause : Interruption) : CursorReader result :=
  ExceptT.mk (throw cause)

/-- What comes of a part of the reading, as a value. -/
def outcomeOf {result : Type} (read : CursorReader result) :
    CursorReader (Except TypeError result) :=
  ExceptT.mk (.ok <$> read.run)

/-- The value of an outcome, or its error. -/
def ofOutcome {result : Type} (outcome : Except TypeError result) : CursorReader result :=
  ExceptT.mk (pure outcome)

/-- Moves the cursor to another place. -/
def moveTo (place : Place) : CursorReader Unit :=
  modify fun cursor => { cursor with place, earlier := cursor.trail }

/-- Moves the cursor behind a number of lexemes. -/
def pass (count : Nat) : CursorReader Unit := do
  let cursor ← get
  moveTo { cursor.place with position := cursor.place.position + count }

/-- Enters one more nesting level, up to a limit. -/
def enter (limit : UInt32) : CursorReader Unit := do
  let cursor ← get
  if limit ≤ cursor.place.level then throw .recursionLimitExceeded
  else if cursor.place.level.toNat + 1 = UInt32.size then interrupt .levelOverflow
  else moveTo { cursor.place with level := cursor.place.level + 1 }

/-- Leaves a nesting level. -/
def leave : CursorReader Unit := do
  let cursor ← get
  if cursor.place.level = 0 then interrupt .levelUnderflow
  else moveTo { cursor.place with level := cursor.place.level - 1 }

/-- Reads on a nesting level of its own, which is left again whatever comes of it. -/
def nested {result : Type} (limit : UInt32) (read : CursorReader result) :
    CursorReader result := do
  enter limit
  let outcome ← outcomeOf read
  leave
  ofOutcome outcome

/-- Reads, and keeps with the cursor that there was a call. -/
def recorded {result : Type} (read : CursorReader result) : CursorReader result := do
  let before ← get
  let outcome ← outcomeOf read
  modify fun cursor =>
    { cursor with calls := cursor.calls ++ [⟨before.place, cursor.place, outcome.isOk⟩] }
  ofOutcome outcome

section

variable (lexemes : List Lexeme)

/-- Passes the blanks that come next. -/
def skipBlanks : CursorReader Unit := do
  let cursor ← get
  pass ((lexemes.drop cursor.place.position).takeWhile Lexeme.isTrivia).length

/-- The next lexeme that is no blank, which is not passed. -/
def peek : CursorReader (Option Lexeme) := do
  skipBlanks lexemes
  let cursor ← get
  return lexemes[cursor.place.position]?

/-- The next lexeme that is no blank is of the kind. -/
def isNext (kind : LexemeKind) : CursorReader Bool := do
  let next ← peek lexemes
  return next.any fun lexeme => lexeme.kind = kind

/-- Passes the next lexeme that is no blank, and gives its text. -/
def bump : CursorReader String := do
  match ← peek lexemes with
  | some lexeme =>
      pass 1
      return lexeme.text
  | none => return ""

/-- Passes the next lexeme that is no blank if it is of the kind. -/
def eat (kind : LexemeKind) : CursorReader Bool := do
  if ← isNext lexemes kind then
    let _ ← bump lexemes
    return true
  else return false

variable (length : Nat)

/-- Fails because something else was expected than comes next. -/
def unexpected {result : Type} (expected : Expectation) : CursorReader result := do
  skipBlanks lexemes
  let cursor ← get
  throw (Grammar.unexpected length expected (lexemes.drop cursor.place.position))

/-- The text of the next lexeme, which must be of the kind. -/
def expect (kind : LexemeKind) : CursorReader String := do
  if ← isNext lexemes kind then bump lexemes else unexpected lexemes length (.lexeme kind)

/-- Reads an item behind each lexeme of the kind as long as one comes next, and combines the items. -/
def repeated {item result : Type} (kind : LexemeKind) (read : CursorReader item)
    (combine : item → result → result) (nothing : result) : Nat → CursorReader result
  | 0 => interrupt .stepsUsedUp
  | steps + 1 => do
      if ← eat lexemes kind then
        let first ← read
        let others ← repeated kind read combine nothing steps
        return combine first others
      else return nothing

/-- Reads one or more items with separators between them. -/
def separated {item : Type} (separator : LexemeKind) (read : CursorReader item) (steps : Nat) :
    CursorReader (List item) := do
  let first ← read
  let others ← repeated lexemes separator read List.cons [] steps
  return first :: others

/-- Reads the segments of a name. -/
def qualifiedName (steps : Nat) : CursorReader (List String) :=
  separated lexemes .dot (expect lexemes length .identifier) steps

/-- Reads pairs of brackets and counts them. -/
def arraySuffixes (steps : Nat) : CursorReader Nat :=
  repeated lexemes .bracketOpen (expect lexemes length .bracketClose) (fun _ dims => dims + 1) 0 steps

variable (scope : Scope)

/-- Reads type arguments in angle brackets. -/
def arguments (read : CursorReader Ty) (steps : Nat) : CursorReader (List Ty) := do
  let _ ← expect lexemes length .angleOpen
  let found ← separated lexemes .comma read steps
  let _ ← expect lexemes length .angleClose
  return found

/-- Reads the type arguments of a name, if any follow, and applies what the name stands for. -/
def application (read : CursorReader Ty) (steps : Nat) (referent : Referent) :
    CursorReader Ty := do
  if ← isNext lexemes .angleOpen then
    let found ← arguments lexemes length read steps
    ofOutcome (Grammar.applied scope found referent)
  else return referent.toTy

/-- Reads a type that starts with a name, its type arguments by the given reader. -/
def namedType (read : CursorReader Ty) (steps : Nat) : CursorReader Ty := do
  let segments ← qualifiedName lexemes length steps
  let innerDims ← arraySuffixes lexemes length steps
  let referent ← ofOutcome (scope.resolve segments)
  let ty ← application lexemes length scope read steps referent
  let outerDims ← arraySuffixes lexemes length steps
  if 255 < innerDims + outerDims then throw .tooManyDimensions
  else return Ty.arrayOfTimes (innerDims + outerDims) ty

variable (limit : UInt32)

/-- Reads a bound: a type on a level of its own that starts with a name. -/
def bound (read : CursorReader Ty) (steps : Nat) : CursorReader Ty :=
  recorded do
    if ← isNext lexemes .question then throw .nestedWildcard
    else nested limit (namedType lexemes length scope read steps)

/-- Reads the bounds behind a keyword, none where the keyword is missing. -/
def boundsBehind (keyword : LexemeKind) (read : CursorReader Ty) (steps : Nat) :
    CursorReader (List Ty) := do
  if ← eat lexemes keyword then
    separated lexemes .ampersand (bound lexemes length scope limit read steps) steps
  else return []

/-- Reads a wildcard, the types in its bounds by the given reader. -/
def wildcard (read : CursorReader Ty) (steps : Nat) : CursorReader Ty := do
  let _ ← expect lexemes length .question
  let upper ← boundsBehind lexemes length scope limit .extendsWord read steps
  let lower ← boundsBehind lexemes length scope limit .superWord read steps
  return Ty.wildcardOf upper lower

/-- Reads a type on a level of its own, in at most the given number of steps one inside the other. -/
def type : Nat → CursorReader Ty
  | 0 => interrupt .stepsUsedUp
  | steps + 1 =>
      recorded <| nested limit do
        if ← isNext lexemes .question then wildcard lexemes length scope limit (type steps) steps
        else namedType lexemes length scope (type steps) steps

/-- Reads a type that all the lexemes are needed for. -/
def root (steps : Nat) : CursorReader Ty := do
  if (← peek lexemes).isNone then unexpected lexemes length .type
  else
    let ty ← type lexemes length scope limit steps
    if (← peek lexemes).isSome then unexpected lexemes length .endOfInput
    else return ty

end

end CursorReader

/--
Reads the lexemes of a text of the given length as one type, from a cursor at their start, with a limit
for the nesting levels. Each loop and each chain of nested types may have the given number of steps.
-/
def Scope.readLexemes (self : Scope) (length : Nat) (limit : UInt32) (steps : Nat)
    (lexemes : List Lexeme) : Except Interruption (Except TypeError Ty × Cursor) :=
  (CursorReader.root lexemes length self limit steps).runAt {}

end NominalTypes
