import NominalTypes.Catalog.Construction

/-!
# The meaning of names in type text

A simple name stands for a primitive type, a type variable in scope, a unique import or a class of
the default package, in this order. A dotted name is tried as a binary name first, then with ever
more of its trailing dots read as nesting separators, and at last with its first segment resolved
through the imports.
-/

namespace NominalTypes

/-- What the names of type text are resolved against. -/
structure Scope where
  catalog : Catalog
  imports : Option Imports := none
  parameters : List TypeVariable := []

/-- What a name stands for. -/
inductive Referent where
  | ofClass (named : ClassName)
  | ofVariable (parameter : TypeVariable)

/-- What a name stands for, as a type. -/
def Referent.toTy : Referent → Ty
  | .ofClass named => .nominal named
  | .ofVariable parameter => .var parameter

namespace Scope

/-- The known class of a binary name. -/
def known (self : Scope) (name : String) : Except TypeError Referent :=
  if self.catalog.contains (.plain name) then .ok (.ofClass (.plain name))
  else .error (.classNotFound name)

/-- The imports that a simple name may stand for; none without an import context. -/
def candidates (self : Scope) (name : String) : List String :=
  match self.imports with
  | some imports => imports.candidates name
  | none => []

/-- What a name without dots stands for. -/
def resolveSimple (self : Scope) (name : String) : Except TypeError Referent :=
  match Primitive.ofKeyword? name with
  | some primitive => .ok (.ofClass (.ofPrimitive primitive))
  | none =>
      match self.parameters.find? fun parameter => parameter.name = name with
      | some parameter => .ok (.ofVariable parameter)
      | none =>
          match self.candidates name with
          | [] => self.known name
          | [only] => self.known only
          | first :: second :: _ => .error (.duplicateImports first second)

/-- The binary name of a class in a package or class, with the nested names of its members. -/
def memberName (outer members : List String) : String :=
  String.intercalate "." outer ++ String.join (members.map fun member => "$" ++ member)

/-- The binary names that a dotted name may spell, with ever more trailing dots as nesting. -/
def spellings (segments : List String) : List String :=
  (List.range segments.length).map fun nested =>
    memberName (segments.take (segments.length - nested)) (segments.drop (segments.length - nested))

/-- The binary name of a member of the class that the first segment is the unique import of. -/
def importedSpelling (self : Scope) : List String → List String
  | [] => []
  | first :: members =>
      match self.candidates first with
      | [outer] => [memberName [outer] members]
      | _ => []

/-- What a name with dots stands for. -/
def resolveDotted (self : Scope) (segments : List String) : Except TypeError Referent :=
  match (spellings segments ++ self.importedSpelling segments).find? fun name =>
      self.catalog.contains (.plain name) with
  | some name => .ok (.ofClass (.plain name))
  | none => .error (.classNotFound (String.intercalate "." segments))

/-- What a name stands for, given by its segments between dots. -/
def resolve (self : Scope) : List String → Except TypeError Referent
  | [name] => self.resolveSimple name
  | segments => self.resolveDotted segments

end Scope

end NominalTypes
