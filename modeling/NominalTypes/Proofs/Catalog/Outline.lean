import NominalTypes.Proofs.Catalog.Extension
import NominalTypes.Proofs.Grammar.Reading

/-!
# What declarations are read against

Of the classes of a catalog, a declaration that is read against it gets to see the names, the kinds and
the numbers of type parameters only. So catalogs with this outline in common read declarations in the
same way. When their names are in different orders, an ambiguous import may be reported with other
candidates, but then it is ambiguous in both.
-/

namespace NominalTypes

namespace Catalog

/-- The catalogs declare the same names, of the same kinds and with as many type parameters. -/
structure HasSameOutline (catalog other : Catalog) : Prop where
  declares : ∀ name, other.declares name = catalog.declares name
  arity : ∀ named, other.arity named = catalog.arity named
  kind : ∀ named, (other.get? named).map ClassInfo.kind = (catalog.get? named).map ClassInfo.kind

theorem isInterface_eq (self : Catalog) (named : ClassName) :
    self.isInterface named =
      decide ((self.get? named).map ClassInfo.kind = some .interface) := by
  simp only [isInterface]
  cases self.get? named <;> simp

section

variable {self other : Catalog} (same : self.HasSameOutline other)

include same

theorem HasSameOutline.contains (named : ClassName) :
    other.contains named = self.contains named := by
  simp only [Catalog.contains, same.declares]

theorem HasSameOutline.enclosing? (named : ClassName) :
    other.enclosing? named = self.enclosing? named := by
  have sameContains : other.contains = self.contains := funext same.contains
  simp only [Catalog.enclosing?, sameContains]

theorem HasSameOutline.isInterface (named : ClassName) :
    other.isInterface named = self.isInterface named := by
  simp only [isInterface_eq, same.kind]

/-- Catalogs with the same outline apply classes to the same arguments. -/
theorem HasSameOutline.parameterize (owner : Option Ty) (raw : ClassName) (arguments : List Ty) :
    other.parameterize owner raw arguments = self.parameterize owner raw arguments := by
  simp only [Catalog.parameterize, same.contains, same.arity, same.enclosing?]

theorem HasSameOutline.applied (parameters : List TypeVariable) (arguments : List Ty)
    (referent : Referent) :
    Grammar.applied (other.declarationScope parameters) arguments referent =
      Grammar.applied (self.declarationScope parameters) arguments referent := by
  cases referent with
  | ofClass raw => exact same.parameterize none raw arguments
  | ofVariable parameter => rfl

theorem HasSameOutline.boundVariable (site : DeclarationSite) (name : String) (bounds : List Ty) :
    other.boundVariable site name bounds = self.boundVariable site name bounds := by
  have sameInterfaces : other.isInterfaceType = self.isInterfaceType := by
    funext ty
    cases ty <;> simp only [isInterfaceType, same.isInterface]
  have sameCheck : ∀ bounds, other.checkBounds bounds = self.checkBounds bounds := by
    intro bounds
    cases bounds <;> simp only [checkBounds, sameInterfaces]
  simp only [Catalog.boundVariable, sameCheck]

theorem HasSameOutline.checkSupertype (kind : ClassKind) (ty : Ty) :
    other.checkSupertype kind ty = self.checkSupertype kind ty := by
  simp only [Catalog.checkSupertype, same.kind]

theorem HasSameOutline.known (parameters : List TypeVariable) (name : String) :
    (other.declarationScope parameters).known name =
      (self.declarationScope parameters).known name := by
  simp only [Scope.known, declarationScope, same.contains]
  rfl

end

section

variable {self other : Catalog} (permuted : self.names.Perm other.names)
  (parameters : List TypeVariable)

include permuted

/-- The imports that a word may stand for are the same, but for their order. -/
theorem candidates_perm (name : String) :
    ((self.declarationScope parameters).candidates name).Perm
      ((other.declarationScope parameters).candidates name) :=
  permuted.filter _

theorem importedSpelling_eq (segments : List String) :
    (other.declarationScope parameters).importedSpelling segments =
      (self.declarationScope parameters).importedSpelling segments := by
  cases segments with
  | nil => rfl
  | cons first members =>
      have candidates := candidates_perm permuted parameters first
      simp only [Scope.importedSpelling]
      split
      · next outer isOnly =>
        rw [isOnly, List.perm_singleton] at candidates
        rw [candidates]
      · next isAmbiguous =>
        split
        · next outer isOnly =>
          rw [isOnly, List.singleton_perm] at candidates
          exact absurd candidates.symm (isAmbiguous outer)
        · rfl

variable (same : self.HasSameOutline other)

include same

/-- A dotted name stands for the same in catalogs with the same outline. -/
theorem HasSameOutline.resolveDotted (segments : List String) :
    (other.declarationScope parameters).resolveDotted segments =
      (self.declarationScope parameters).resolveDotted segments := by
  have sameContains : (other.declarationScope parameters).catalog.contains =
      (self.declarationScope parameters).catalog.contains := funext same.contains
  simp only [Scope.resolveDotted, importedSpelling_eq permuted parameters, sameContains]

/-- A simple name stands for the same in both catalogs, unless it is an ambiguous import of both. -/
theorem HasSameOutline.resolveSimple {name : String} {referent : Referent}
    (resolved : (self.declarationScope parameters).resolveSimple name = .ok referent) :
    (other.declarationScope parameters).resolveSimple name = .ok referent := by
  have candidates := candidates_perm permuted parameters name
  simp only [Scope.resolveSimple] at resolved ⊢
  cases isKeyword : Primitive.ofKeyword? name with
  | some primitive => simpa only [isKeyword] using resolved
  | none =>
      simp only [isKeyword] at resolved ⊢
      have sameParameters : (other.declarationScope parameters).parameters =
          (self.declarationScope parameters).parameters := rfl
      rw [sameParameters]
      split at resolved
      · exact resolved
      · split at resolved
        · next isNoImport =>
          rw [isNoImport, List.nil_perm] at candidates
          simpa only [candidates, same.known] using resolved
        · next only isOnly =>
          rw [isOnly, List.singleton_perm] at candidates
          simpa only [← candidates, same.known] using resolved
        · cases resolved

/-- Catalogs that differ in the order of their classes read the same declarations. -/
theorem HasSameOutline.answers :
    Grammar.Answers (self.declarationScope parameters) (other.declarationScope parameters) where
  resolve := by
    intro segments referent resolved
    rcases segments with _ | ⟨first, _ | ⟨second, others⟩⟩
    · exact (same.resolveDotted permuted parameters []).trans resolved
    · exact same.resolveSimple permuted parameters resolved
    · exact (same.resolveDotted permuted parameters (first :: second :: others)).trans resolved
  applied := fun arguments referent => (same.applied parameters arguments referent).symm

end

end Catalog

end NominalTypes
