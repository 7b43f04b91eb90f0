import NominalTypes.Grammar.Parser

/-!
# Derivations of type text

The grammar of type text on its own, apart from the way it is read. A derivation is a tree; its
yield is the sequence of symbols that it is written with, and its meaning in a scope is the type
that it denotes, if its names resolve, its arguments fit and its nesting stays within the given
number of levels. Bounds of wildcards are derivations of named types, since a wildcard is no bound.
-/

namespace NominalTypes

/-- A lexeme without its place in the text. -/
structure Symbol where
  kind : LexemeKind
  text : String
deriving DecidableEq, Repr

/-- The lexeme without its place in the text. -/
def Lexeme.symbol (self : Lexeme) : Symbol := ⟨self.kind, self.text⟩

mutual

/-- A derivation of a type: a named type, or a wildcard with its upper and lower bounds. -/
inductive TypeTree where
  | named (type : NamedTree)
  | wildcard (upper lower : List NamedTree)

/-- A derivation of a type that starts with a name; without arguments it has no angle brackets. -/
structure NamedTree where
  firstSegment : String
  furtherSegments : List String
  innerDims : Nat
  arguments : List TypeTree
  outerDims : Nat

end

/-- Symbol sequences one after the other, with a separator between them. -/
def Symbol.separate (separator : Symbol) : List (List Symbol) → List Symbol
  | [] => []
  | [only] => only
  | first :: second :: rest => first ++ separator :: separate separator (second :: rest)

/-- The symbols of a number of array dimensions. -/
def Symbol.suffixes : Nat → List Symbol
  | 0 => []
  | dims + 1 => ⟨.bracketOpen, "["⟩ :: ⟨.bracketClose, "]"⟩ :: suffixes dims

/-- The symbols of a name with the given segments. -/
def Symbol.name (first : String) (further : List String) : List Symbol :=
  ⟨.identifier, first⟩ ::
    further.flatMap fun segment => [⟨.dot, "."⟩, ⟨.identifier, segment⟩]

mutual

/-- The symbols that a derivation is written with. -/
def TypeTree.yield : TypeTree → List Symbol
  | .named type => type.yield
  | .wildcard upper lower =>
      ⟨.question, "?"⟩ ::
        (if upper.isEmpty then []
          else ⟨.extendsWord, "extends"⟩ ::
            Symbol.separate ⟨.ampersand, "&"⟩ (NamedTree.yields upper)) ++
        (if lower.isEmpty then []
          else ⟨.superWord, "super"⟩ ::
            Symbol.separate ⟨.ampersand, "&"⟩ (NamedTree.yields lower))
termination_by structural tree => tree

/-- The symbols that the derivation of a named type is written with. -/
def NamedTree.yield : NamedTree → List Symbol
  | ⟨first, further, inner, arguments, outer⟩ =>
      Symbol.name first further ++ Symbol.suffixes inner ++
        (if arguments.isEmpty then []
          else ⟨.angleOpen, "<"⟩ ::
            Symbol.separate ⟨.comma, ","⟩ (TypeTree.yields arguments) ++ [⟨.angleClose, ">"⟩]) ++
        Symbol.suffixes outer
termination_by structural tree => tree

/-- The yields of the derivations in order. -/
def TypeTree.yields : List TypeTree → List (List Symbol)
  | [] => []
  | tree :: trees => tree.yield :: TypeTree.yields trees
termination_by structural trees => trees

/-- The yields of the derivations of named types in order. -/
def NamedTree.yields : List NamedTree → List (List Symbol)
  | [] => []
  | tree :: trees => tree.yield :: NamedTree.yields trees
termination_by structural trees => trees

end

/-- What a name means with the meanings of its arguments, none where it has no arguments. -/
def Referent.applied? (catalog : Catalog) : Referent → List Ty → Option Ty
  | referent, [] => some referent.toTy
  | .ofVariable _, _ :: _ => none
  | .ofClass raw, arguments =>
      if catalog.arity raw = arguments.length then
        some (.parameterized ((catalog.enclosing? raw).map .nominal) raw arguments)
      else none

/-- The array type with the given dimensions over a component, if a class can carry as many. -/
def Ty.suffixed? (dims : Nat) (component : Ty) : Option Ty :=
  if dims ≤ 255 then some (Ty.arrayOfTimes dims component) else none

mutual

/-- The type that a derivation denotes with the given number of nesting levels. -/
def TypeTree.meaning? (scope : Scope) : Nat → TypeTree → Option Ty
  | 0, _ => none
  | levels + 1, .named type => type.meaning? scope levels
  | levels + 1, .wildcard upper lower => do
      let upper ← NamedTree.meanings? scope levels upper
      let lower ← NamedTree.meanings? scope levels lower
      some (Ty.wildcardOf upper lower)
termination_by structural _ tree => tree

/-- The type that the derivation of a named type denotes, with the levels for its arguments. -/
def NamedTree.meaning? (scope : Scope) : Nat → NamedTree → Option Ty
  | levels, ⟨first, further, inner, arguments, outer⟩ => do
      let referent ← (scope.resolve (first :: further)).toOption
      let arguments ← TypeTree.meanings? scope levels arguments
      let ty ← referent.applied? scope.catalog arguments
      ty.suffixed? (inner + outer)
termination_by structural _ tree => tree

/-- The types that the derivations of arguments denote. -/
def TypeTree.meanings? (scope : Scope) : Nat → List TypeTree → Option (List Ty)
  | _, [] => some []
  | levels, tree :: trees => do
      let ty ← tree.meaning? scope levels
      let types ← TypeTree.meanings? scope levels trees
      some (ty :: types)
termination_by structural _ trees => trees

/-- The types that the derivations of bounds denote, each on a level of its own. -/
def NamedTree.meanings? (scope : Scope) : Nat → List NamedTree → Option (List Ty)
  | _, [] => some []
  | 0, _ :: _ => none
  | levels + 1, tree :: trees => do
      let ty ← tree.meaning? scope levels
      let types ← NamedTree.meanings? scope (levels + 1) trees
      some (ty :: types)
termination_by structural _ trees => trees

end

/-- The symbols are a sentence of the grammar, whatever their names mean. -/
def IsSentence (kinds : List LexemeKind) : Prop :=
  ∃ tree : TypeTree, tree.yield.map Symbol.kind = kinds

/-- The symbols are the start of a sentence of the grammar. -/
def IsSentenceStart (kinds : List LexemeKind) : Prop :=
  ∃ rest, IsSentence (kinds ++ rest)

end NominalTypes
