import NominalTypes.Catalog.Document
import NominalTypes.Grammar.Parser

/-!
# Extending a catalog by a document

The classes of a document are declared by name, kind and number of type parameters first, so that
they can refer to each other in any order. Then the bounds of their type parameters are read, each
with the parameters before it in scope, and at last their supertypes, with all their parameters in
scope. All known classes can be named by their simple names where these are unambiguous. Either
the whole document is added or nothing.
-/

namespace NominalTypes

/-- The reasons why a document cannot be added to a catalog. -/
inductive LoadError where
  /-- The text is no JSON of the shape of a document. -/
  | notADocument
  /-- A class of the name is declared already. -/
  | duplicateClass (name : String)
  /-- The declaration of a class is in error. -/
  | invalidClass (name : String) (cause : TypeError)
deriving DecidableEq

/-- The wording of a reason; the details of malformed JSON are not told. -/
def LoadError.message : LoadError → String
  | .notADocument => "JSON parse error"
  | .duplicateClass name => "duplicate class declaration: " ++ name
  | .invalidClass name cause => "invalid declaration of " ++ name ++ ": " ++ cause.message

namespace ClassDeclaration

/-- The place where the type parameters of the class are declared. -/
def site (self : ClassDeclaration) : DeclarationSite := .type (.plain self.name)

/-- What is known of the class before its bounds and supertypes are read. -/
def skeleton (self : ClassDeclaration) : ClassInfo where
  name := self.name
  kind := self.kind
  typeParameters := self.typeParameters.map fun parameter =>
    TypeVariable.unbounded self.site parameter.name
  superclass := none
  interfaces := []

/-- Some type parameter of the class has bounds. -/
def isBounded (self : ClassDeclaration) : Bool :=
  self.typeParameters.any fun parameter => !parameter.bounds.isEmpty

end ClassDeclaration

namespace Catalog

/-- The catalog with the skeletons of the classes, each under a name of its own. -/
def declareAll (self : Catalog) (classes : List ClassDeclaration) : Except LoadError Catalog :=
  classes.foldlM
    (fun catalog declaration =>
      match catalog.declare? declaration.skeleton with
      | some extended => .ok extended
      | none => .error (.duplicateClass declaration.name))
    self

/-- The names that the declarations of a catalog can use, with type variables in scope. -/
def declarationScope (self : Catalog) (parameters : List TypeVariable) : Scope where
  catalog := self
  imports := some self.imports
  parameters := parameters

/-- Reads type parameters with their bounds, after the parameters that are declared before them. -/
def boundParameters (self : Catalog) (site : DeclarationSite) (earlier : List TypeVariable) :
    List ParameterDeclaration → Except TypeError (List TypeVariable)
  | [] => .ok earlier
  | declaration :: rest => do
      let bounds ← declaration.bounds.mapM ((self.declarationScope earlier).parse defaultDepth)
      let parameter ← self.boundVariable site declaration.name bounds
      self.boundParameters site (earlier ++ [parameter]) rest

/-- The type parameters of a class; those of a class without any bounds need not be read. -/
def typeParametersOf (self : Catalog) (declaration : ClassDeclaration) :
    Except TypeError (List TypeVariable) :=
  if declaration.isBounded then
    self.boundParameters declaration.site [] declaration.typeParameters
  else .ok declaration.skeleton.typeParameters

/-- The class that a type could have been declared with as a supertype. -/
def supertypeClass? : Ty → Option ClassName
  | .nominal named => if named.isArray || named.isPrimitive then none else some named
  | .parameterized _ raw _ => some raw
  | _ => none

/-- The type can be a declared supertype in a place for classes of the kind. -/
def checkSupertype (self : Catalog) (kind : ClassKind) (ty : Ty) : Except TypeError Unit :=
  match supertypeClass? ty with
  | none => .error (.notASupertype ty)
  | some named =>
      if (self.get? named).map ClassInfo.kind = some kind then .ok ()
      else .error (.supertypeKind ty kind)

/-- Reads a declared supertype of the kind. -/
def readSupertype (self : Catalog) (parameters : List TypeVariable) (kind : ClassKind)
    (text : String) : Except TypeError Ty := do
  let ty ← (self.declarationScope parameters).parse defaultDepth text
  self.checkSupertype kind ty
  .ok ty

/-- The superclass of a class, which is `java.lang.Object` unless something else is declared. -/
def superclassOf (self : Catalog) (parameters : List TypeVariable)
    (declaration : ClassDeclaration) : Except TypeError (Option Ty) :=
  match declaration.kind, declaration.superclass with
  | .interface, some _ => .error .interfaceWithSuperclass
  | .interface, none => .ok none
  | .concrete, some text => (self.readSupertype parameters .concrete text).map some
  | .concrete, none => .ok (if declaration.name = ClassName.object.name then none else some .object)

/-- What is known of a class with the given type parameters once its supertypes are read. -/
def link (self : Catalog) (declaration : ClassDeclaration) (parameters : List TypeVariable) :
    Except TypeError ClassInfo := do
  let superclass ← self.superclassOf parameters declaration
  let interfaces ← declaration.interfaces.mapM (self.readSupertype parameters .interface)
  .ok { name := declaration.name, kind := declaration.kind, typeParameters := parameters,
        superclass, interfaces }

/-- Names the class whose declaration is in error. -/
def inDeclaration {result : Type} (declaration : ClassDeclaration) :
    Except TypeError result → Except LoadError result
  | .ok result => .ok result
  | .error cause => .error (.invalidClass declaration.name cause)

/-- The catalog with the classes of a document added. -/
def extend (self : Catalog) (document : Document) : Except LoadError Catalog := do
  let skeletons ← self.declareAll document.classes
  let bounded ← document.classes.mapM fun declaration =>
    (inDeclaration declaration (skeletons.typeParametersOf declaration)).map (declaration, ·)
  let linked ← bounded.mapM fun (declaration, parameters) =>
    inDeclaration declaration (skeletons.link declaration parameters)
  .ok (linked.foldl replace skeletons)

/-- The catalog with the classes of a JSON text added. -/
def extendFromText (self : Catalog) (text : String) : Except LoadError Catalog :=
  match Document.ofText? text with
  | some document => self.extend document
  | none => .error .notADocument

/-- The catalog of the classes of a JSON text. -/
def ofText (text : String) : Except LoadError Catalog := empty.extendFromText text

end Catalog

end NominalTypes
