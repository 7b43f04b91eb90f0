import NominalTypes.Grammar.Derivation

/-!
# Qualified names in type text

The names in a text are its runs of identifiers with dots between them. They are read off the
symbols of the text, so that they are there for every text, whether it can be read or not. A name is
qualified if it has a package or a class in front, or if it is a primitive's keyword, which nothing
shadows.
-/

namespace NominalTypes

namespace Symbol

/-- The symbols go on with one more segment of a name. -/
def continuesName : List Symbol → Bool
  | dot :: segment :: _ => dot.kind = .dot && segment.kind = .identifier
  | _ => false

/-- The names in the symbols in order, each by its segments. -/
def qualifiedNames : List Symbol → List (List String)
  | [] => []
  | first :: rest =>
      if first.kind = .identifier then
        if continuesName rest then (qualifiedNames rest).modifyHead (first.text :: ·)
        else [first.text] :: qualifiedNames rest
      else qualifiedNames rest

end Symbol

/-- The names in the text in order, each by its segments. -/
def Lexeme.qualifiedNames (text : String) : List (List String) :=
  Symbol.qualifiedNames ((significant text).map symbol)

/-- The name has several segments, or it is the keyword of a primitive type. -/
def IsQualified (segments : List String) : Prop :=
  2 ≤ segments.length ∨ ∃ primitive : Primitive, segments = [primitive.keyword]

end NominalTypes
