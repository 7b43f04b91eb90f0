import NominalTypes.TypeError
import NominalTypes.Json.Reader

/-!
# Documents of class declarations

A document declares classes with their supertypes and the bounds of their type parameters as type
text. As JSON it is an object with the member `classes`; each class is an object with the members
`name`, `kind`, `type_parameters`, `superclass` and `interfaces`, of which only the name is
required. In the place of either object there may be the array of its members' values in this
order, the last ones left out. Members of other names mean nothing, but no member may be there
twice.
-/

namespace NominalTypes

/-- A type parameter as it is declared. -/
structure ParameterDeclaration where
  name : String
  bounds : List String := []
deriving DecidableEq, Repr

/-- A class as it is declared. -/
structure ClassDeclaration where
  name : String
  kind : ClassKind := .concrete
  typeParameters : List ParameterDeclaration := []
  superclass : Option String := none
  interfaces : List String := []
deriving DecidableEq, Repr

/-- The declarations of classes in their order. -/
structure Document where
  classes : List ClassDeclaration
deriving DecidableEq, Repr

namespace Json

/--
The values of the named members of an object, or of the positions of an array. Names that are no
text and repeated members are refused, and so are arrays that are too long.
-/
def parts? (names : List String) : Json → Option (List (Option Json))
  | .object members =>
      if members.all fun member => member.1.isSome then names.mapM (uniqueMember members) else none
  | .array items =>
      if items.length ≤ names.length then
        some (items.map some ++ List.replicate (names.length - items.length) none)
      else none
  | _ => none

/-- The reading of a value that may be missing. -/
def optional {result : Type} (read : Json → Option result) (default : result) :
    Option Json → Option result
  | none => some default
  | some json => read json

end Json

namespace ParameterDeclaration

/-- The nesting that the object of a type parameter may have, itself included. -/
def depthLimit : Nat := 123

/-- The type parameter that a value declares: its name, or an object with its name and bounds. -/
def ofJson? : Json → Option ParameterDeclaration
  | .string text => text.map fun name => { name := name }
  | .object members =>
      if (Json.object members).isRepresentable ∧ (Json.object members).depth ≤ depthLimit then do
        let name ← (← Json.uniqueMember members "name").bind Json.text?
        let bounds ← Json.optional Json.texts? [] (← Json.uniqueMember members "bounds")
        some { name, bounds }
      else none
  | _ => none

end ParameterDeclaration

/--
The kind of class that a value names: its word, or an object with the word as its only member.
-/
def ClassKind.ofJson? : Json → Option ClassKind
  | .string (some "class") | .object [(some "class", .null)] => some .concrete
  | .string (some "interface") | .object [(some "interface", .null)] => some .interface
  | _ => none

namespace ClassDeclaration

/-- The names of the members of a class declaration, in order. -/
def memberNames : List String := ["name", "kind", "type_parameters", "superclass", "interfaces"]

/-- The type parameters that a value declares. -/
def parametersOfJson? : Json → Option (List ParameterDeclaration)
  | .array items => items.mapM ParameterDeclaration.ofJson?
  | _ => none

/-- The superclass that a value names, if any. -/
def superclassOfJson? : Json → Option (Option String)
  | .null => some none
  | .string text => text.map some
  | _ => none

/-- The class that a value declares. -/
def ofJson? (json : Json) : Option ClassDeclaration := do
  match ← json.parts? memberNames with
  | [name, kind, typeParameters, superclass, interfaces] =>
      some {
        name := ← name.bind Json.text?
        kind := ← Json.optional ClassKind.ofJson? .concrete kind
        typeParameters := ← Json.optional parametersOfJson? [] typeParameters
        superclass := ← Json.optional superclassOfJson? none superclass
        interfaces := ← Json.optional Json.texts? [] interfaces }
  | _ => none

end ClassDeclaration

namespace Document

/-- The document that a value is. -/
def ofJson? (json : Json) : Option Document := do
  match ← json.parts? ["classes"] with
  | [some (.array items)] => some { classes := ← items.mapM ClassDeclaration.ofJson? }
  | _ => none

/-- The document that a JSON text is. -/
def ofText? (text : String) : Option Document := (Json.ofText? text).bind ofJson?

end Document

end NominalTypes
