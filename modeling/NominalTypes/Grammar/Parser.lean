import NominalTypes.Grammar.Scope

/-!
# Reading type text

Type text is read from its significant lexemes by the grammar

- type: name, array suffixes, optionally `<` types separated by `,` `>`, array suffixes; or wildcard
- name: identifiers separated by `.`
- array suffix: `[` `]`
- wildcard: `?`, optionally `extends` bounds, optionally `super` bounds
- bounds: types other than wildcards, separated by `&`

The array suffixes on both sides of the arguments apply to the whole type. Each type argument and
each bound is nested one level deeper than the type it stands in, and the number of levels is
limited. The first error ends the reading.
-/

namespace NominalTypes

/-- The number of nesting levels that type text may have unless another limit is given. -/
def defaultDepth : Nat := 256

/-- Reads something from the start of the lexemes and gives back the lexemes behind it. -/
abbrev LexemeReader (result : Type) := List Lexeme → Except TypeError (result × List Lexeme)

/-- The array type with the given number of dimensions over a component. -/
def Ty.arrayOfTimes : Nat → Ty → Ty
  | 0, component => component
  | dims + 1, component => arrayOfTimes dims (arrayOf component)

namespace Grammar

/-- The first lexeme, if any, is of the kind. -/
def startsWith (kind : LexemeKind) : List Lexeme → Bool
  | [] => false
  | lexeme :: _ => lexeme.kind = kind

/-- What stands at the start of the lexemes. -/
def finding : List Lexeme → Finding
  | [] => .endOfInput
  | lexeme :: _ => if lexeme.kind = .garbage then .garbage lexeme.text else .lexeme lexeme.kind

/-- The offset of the first lexeme, or the length of the text behind the last one. -/
def offset (length : Nat) : List Lexeme → Nat
  | [] => length
  | lexeme :: _ => lexeme.start

/-- The error that something else was expected where the lexemes start. -/
def unexpected (length : Nat) (expected : Expectation) (lexemes : List Lexeme) : TypeError :=
  .unexpected (offset length lexemes) expected (finding lexemes)

section

variable (length : Nat)

/-- Reads the text of one lexeme of the kind. -/
def expect (kind : LexemeKind) : LexemeReader String
  | lexeme :: rest =>
      if lexeme.kind = kind then .ok (lexeme.text, rest)
      else .error (unexpected length (.lexeme kind) (lexeme :: rest))
  | [] => .error (unexpected length (.lexeme kind) [])

/-- Reads the further segments of a name, each behind a dot. -/
def furtherSegments : LexemeReader (List String)
  | [] => .ok ([], [])
  | lexeme :: rest =>
      if lexeme.kind = .dot then
        match rest with
        | [] => .error (unexpected length (.lexeme .identifier) [])
        | segment :: behind =>
            if segment.kind = .identifier then do
              let (segments, remaining) ← furtherSegments behind
              .ok (segment.text :: segments, remaining)
            else .error (unexpected length (.lexeme .identifier) (segment :: behind))
      else .ok ([], lexeme :: rest)

/-- Reads the segments of a name. -/
def qualifiedName : LexemeReader (List String) := fun lexemes => do
  let (first, rest) ← expect length .identifier lexemes
  let (further, remaining) ← furtherSegments length rest
  .ok (first :: further, remaining)

/-- Reads pairs of brackets and counts them. -/
def arraySuffixes : LexemeReader Nat
  | [] => .ok (0, [])
  | lexeme :: rest =>
      if lexeme.kind = .bracketOpen then
        match rest with
        | [] => .error (unexpected length (.lexeme .bracketClose) [])
        | closing :: behind =>
            if closing.kind = .bracketClose then do
              let (dims, remaining) ← arraySuffixes behind
              .ok (dims + 1, remaining)
            else .error (unexpected length (.lexeme .bracketClose) (closing :: behind))
      else .ok (0, lexeme :: rest)

end

/--
Reads one or more items with separators between them. The count limits the separators that are
read: each is a lexeme, so that the number of lexemes is no limit.
-/
def separated {item : Type} (separator : LexemeKind) (read : LexemeReader item) :
    Nat → LexemeReader (List item)
  | 0 => fun lexemes => do
      let (first, rest) ← read lexemes
      .ok ([first], rest)
  | count + 1 => fun lexemes => do
      let (first, rest) ← read lexemes
      match rest with
      | [] => .ok ([first], [])
      | lexeme :: behind =>
          if lexeme.kind = separator then do
            let (further, remaining) ← separated separator read count behind
            .ok (first :: further, remaining)
          else .ok ([first], lexeme :: behind)

/-- Reads a bound by the reader of types, unless it is a wildcard. -/
def bound (read : LexemeReader Ty) : LexemeReader Ty := fun lexemes =>
  if startsWith .question lexemes then .error .nestedWildcard else read lexemes

/-- Reads the bounds behind a keyword, none where the keyword is missing. -/
def boundsBehind (keyword : LexemeKind) (read : LexemeReader Ty) : LexemeReader (List Ty)
  | [] => .ok ([], [])
  | lexeme :: rest =>
      if lexeme.kind = keyword then separated .ampersand (bound read) rest.length rest
      else .ok ([], lexeme :: rest)

/-- Reads what follows the question mark of a wildcard. -/
def wildcardBounds (read : LexemeReader Ty) : LexemeReader Ty := fun lexemes => do
  let (upper, rest) ← boundsBehind .extendsWord read lexemes
  let (lower, remaining) ← boundsBehind .superWord read rest
  .ok (Ty.wildcardOf upper lower, remaining)

section

variable (scope : Scope) (length : Nat)

/-- Applies what a name stands for to type arguments; only a class takes any. -/
def applied (arguments : List Ty) : Referent → Except TypeError Ty
  | .ofClass raw => scope.catalog.parameterize none raw arguments
  | .ofVariable parameter => .error (.variableWithArguments parameter.name)

/-- Reads the type arguments of a name, if any follow, and applies what the name stands for. -/
def application (read : LexemeReader Ty) (referent : Referent) : LexemeReader Ty
  | [] => .ok (referent.toTy, [])
  | lexeme :: rest =>
      if lexeme.kind = .angleOpen then do
        let (arguments, behind) ← separated .comma read rest.length rest
        let (_, remaining) ← expect length .angleClose behind
        let ty ← applied scope arguments referent
        .ok (ty, remaining)
      else .ok (referent.toTy, lexeme :: rest)

/-- Reads a type that starts with a name, its type arguments by the given reader. -/
def namedType (read : LexemeReader Ty) : LexemeReader Ty := fun lexemes => do
  let (segments, behindName) ← qualifiedName length lexemes
  let (innerDims, behindSuffixes) ← arraySuffixes length behindName
  let referent ← scope.resolve segments
  let (ty, behindArguments) ← application scope length read referent behindSuffixes
  let (outerDims, remaining) ← arraySuffixes length behindArguments
  if 255 < innerDims + outerDims then .error .tooManyDimensions
  else .ok (Ty.arrayOfTimes (innerDims + outerDims) ty, remaining)

/-- Reads a type with the given number of nesting levels. -/
def type : Nat → LexemeReader Ty
  | 0 => fun _ => .error .recursionLimitExceeded
  | depth + 1 => fun lexemes =>
      match lexemes with
      | [] => namedType scope length (type depth) []
      | lexeme :: rest =>
          if lexeme.kind = .question then wildcardBounds (type depth) rest
          else namedType scope length (type depth) (lexeme :: rest)

/-- Reads a type that all the lexemes are needed for. -/
def root (depth : Nat) : List Lexeme → Except TypeError Ty
  | [] => .error (unexpected length .type [])
  | lexeme :: rest => do
      let (ty, remaining) ← type scope length depth (lexeme :: rest)
      match remaining with
      | [] => .ok ty
      | next :: behind => .error (unexpected length .endOfInput (next :: behind))

end

end Grammar

/-- The type that a text denotes, with a limit for its nesting levels. -/
def Scope.parse (self : Scope) (depth : Nat) (text : String) : Except TypeError Ty :=
  Grammar.root self text.utf8ByteSize depth (Lexeme.significant text)

end NominalTypes
