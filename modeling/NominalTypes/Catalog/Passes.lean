import NominalTypes.Catalog.Loading

/-!
# Loading class by class

A document can also be added in passes that change the catalog class by class, while the declarations
behind are still to be read: first the skeletons of all classes are declared, then the bounds of type
parameters are filled in, and at last the supertypes.
-/

namespace NominalTypes

namespace Catalog

/-- The catalog with something else known of a class, if that is declared. -/
def update (self : Catalog) (named : ClassName) (change : ClassInfo → ClassInfo) : Catalog :=
  match self.get? named with
  | some info => self.replace (change info)
  | none => self

/-- The catalog with the bounds of a class's type parameters filled in. -/
def boundClass (self : Catalog) (declaration : ClassDeclaration) : Except LoadError Catalog :=
  if declaration.isBounded then do
    let parameters ← inDeclaration declaration
      (self.boundParameters declaration.site [] declaration.typeParameters)
    .ok (self.update (.plain declaration.name) fun info => { info with typeParameters := parameters })
  else .ok self

/-- The catalog with the supertypes of a class filled in. -/
def linkClass (self : Catalog) (declaration : ClassDeclaration) : Except LoadError Catalog := do
  let linked ← inDeclaration declaration
    (self.link declaration (self.typeParameters (.plain declaration.name)))
  .ok (self.update (.plain declaration.name) fun info =>
    { info with superclass := linked.superclass, interfaces := linked.interfaces })

/-- The catalog with the classes of a document added in three passes. -/
def extendByPasses (self : Catalog) (document : Document) : Except LoadError Catalog := do
  let declared ← self.declareAll document.classes
  let bounded ← document.classes.foldlM boundClass declared
  document.classes.foldlM linkClass bounded

end Catalog

end NominalTypes
