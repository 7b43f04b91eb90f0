import NominalTypes.Catalog.History
import NominalTypes.Hierarchy.Paths
import NominalTypes.Proofs.Catalog.Extension
import NominalTypes.Proofs.Grammar.Denotable

/-!
# The supertypes of loaded catalogs

Each supertype that is declared in a loaded catalog names a class that is no array. It is canonical,
its variables are type parameters of the class that declares it, and every class in it is applied to
as many arguments as it has type parameters. A document adds classes with such supertypes and does
not change how many arguments the classes before it take, so that all catalogs which loading leads
to have this property.
-/

namespace NominalTypes

namespace Catalog

/-- The type is built like a supertype that a class with the type parameters can declare. -/
structure IsSupertypeOver (catalog : Catalog) (parameters : List TypeVariable) (supertype : Ty) :
    Prop where
  namesClass : (supertypeClass? supertype).isSome = true
  canonical : supertype.IsCanonical
  closed : ∀ parameter ∈ supertype.occurrences, parameter ∈ parameters
  applied : ∀ part ∈ supertype.parts, catalog.FitsArity part

/-- All declared supertypes are built like such of the class that declares them. -/
def HasLinkedSupertypes (self : Catalog) : Prop :=
  ∀ info ∈ self.classes, ∀ supertype ∈ info.superclass.toList ++ info.interfaces,
    self.IsSupertypeOver info.typeParameters supertype

/-- Generic classes of the one catalog take as many arguments in the other. -/
def KeepsArity (self other : Catalog) : Prop :=
  ∀ named, self.arity named ≠ 0 → other.arity named = self.arity named

theorem FitsArity.arity_ne_zero {self : Catalog} {owner : Option Ty} {raw : ClassName}
    {arguments : List Ty} (fits : self.FitsArity (.parameterized owner raw arguments)) :
    self.arity raw ≠ 0 := by
  rcases fits with ⟨nonempty, arity⟩
  rw [arity]
  intro none
  exact nonempty (List.length_eq_zero_iff.1 none)

theorem FitsArity.kept {self other : Catalog} (kept : self.KeepsArity other) {part : Ty}
    (fits : self.FitsArity part) : other.FitsArity part := by
  cases part with
  | nominal | array | var | wildcard => trivial
  | parameterized owner raw arguments =>
      exact ⟨fits.1, (kept raw fits.arity_ne_zero).trans fits.2⟩

theorem IsSupertypeOver.kept {self other : Catalog} (kept : self.KeepsArity other)
    {parameters : List TypeVariable} {supertype : Ty}
    (built : self.IsSupertypeOver parameters supertype) :
    other.IsSupertypeOver parameters supertype where
  namesClass := built.namesClass
  canonical := built.canonical
  closed := built.closed
  applied := fun part isPart => (built.applied part isPart).kept kept

theorem IsSupertypeOver.isVariable_eq_false {self : Catalog} {parameters : List TypeVariable}
    {supertype : Ty} (built : self.IsSupertypeOver parameters supertype) :
    supertype.isVariable = false := by
  cases supertype with
  | nominal | array | parameterized | wildcard => rfl
  | var parameter => cases built.namesClass

theorem isSupertypeOver_plain {self : Catalog} {parameters : List TypeVariable} {name : String}
    (declarable : (ClassName.plain name).isPrimitive = false) :
    self.IsSupertypeOver parameters (.nominal (.plain name)) where
  namesClass := by
    have plain : (ClassName.plain name).isArray = false := rfl
    simp [supertypeClass?, declarable, plain]
  canonical := Ty.isCanonical_nominal _
  closed := by simp [Ty.occurrences]
  applied := by simp [Ty.parts, FitsArity]

/-- A supertype that is read is built like one of its class. -/
theorem isSupertypeOver_of_read {self : Catalog} {parameters : List TypeVariable}
    {kind : ClassKind} {text : String} {ty : Ty}
    (read : self.readSupertype parameters kind text = .ok ty) :
    self.IsSupertypeOver parameters ty := by
  rcases readSupertype_eq_ok_iff.1 read with ⟨isParsed, accepted⟩
  have denotable := Scope.isDenotable_of_parse isParsed
  refine ⟨?_, denotable.isCanonical, denotable.mem_parameters, denotable.fitsArity⟩
  simp only [checkSupertype] at accepted
  split at accepted
  · cases accepted
  · next named isNamed => rw [isNamed]; rfl

/-- A superclass is read from text or goes unsaid. -/
theorem exists_readSupertype_of_superclassOf {self : Catalog} {parameters : List TypeVariable}
    {declaration : ClassDeclaration} {superclass : Option Ty}
    (isSuperclass : self.superclassOf parameters declaration = .ok superclass) :
    ∀ ty ∈ superclass,
      ty = .object ∨ ∃ text, self.readSupertype parameters .concrete text = .ok ty := by
  simp only [superclassOf] at isSuperclass
  split at isSuperclass
  · cases isSuperclass
  · cases isSuperclass
    simp
  · next text _ _ =>
    rcases map_eq_ok.1 isSuperclass with ⟨ty, read, rfl⟩
    rintro _ ⟨⟩
    exact Or.inr ⟨text, read⟩
  · cases isSuperclass
    split
    · simp
    · rintro _ ⟨⟩
      exact Or.inl rfl

/-- Each supertype of a linked class is read from its text, or it is the one that goes unsaid. -/
theorem Links.exists_readSupertype {skeletons : Catalog} {declaration : ClassDeclaration}
    {info : ClassInfo} (links : skeletons.Links declaration info) :
    ∀ supertype ∈ info.superclass.toList ++ info.interfaces,
      supertype = .object ∨
        ∃ kind text, skeletons.readSupertype info.typeParameters kind text = .ok supertype := by
  rcases links with ⟨parameters, -, linked⟩
  rcases link_eq_ok.1 linked with ⟨superclass, interfaces, isSuperclass, areInterfaces, rfl⟩
  intro supertype member
  rcases List.mem_append.1 member with isSuper | isInterface
  · have alternatives := exists_readSupertype_of_superclassOf isSuperclass supertype
      (Option.mem_toList.1 isSuper)
    exact alternatives.imp_right fun read => ⟨.concrete, read⟩
  · have each : ∀ text ty, skeletons.readSupertype parameters .interface text = .ok ty →
        ∃ text, skeletons.readSupertype parameters .interface text = .ok ty :=
      fun text _ read => ⟨text, read⟩
    exact Or.inr ⟨.interface, forall_of_forall₂ each areInterfaces supertype isInterface⟩

/-- The supertypes of a linked class are built like such of the class. -/
theorem Links.isSupertypeOver {skeletons : Catalog} {declaration : ClassDeclaration}
    {info : ClassInfo} (links : skeletons.Links declaration info) :
    ∀ supertype ∈ info.superclass.toList ++ info.interfaces,
      skeletons.IsSupertypeOver info.typeParameters supertype := by
  intro supertype member
  rcases links.exists_readSupertype supertype member with rfl | ⟨kind, text, read⟩
  · exact isSupertypeOver_plain (by decide)
  · exact isSupertypeOver_of_read read

section

variable {property : Catalog → ClassInfo → Prop}
  (linked : ∀ skeletons declaration info, skeletons.Links declaration info → property skeletons info)
  (kept : ∀ self other info, self.IsKeptBy other → property self info → property other info)

include linked kept

/--
A property of classes that linking establishes and growth keeps holds after a document is accepted.
-/
theorem forall_classes_of_extend {self extended : Catalog} {document : Document}
    (holds : ∀ info ∈ self.classes, property self info)
    (accepted : self.extend document = .ok extended) :
    ∀ info ∈ extended.classes, property extended info := by
  rcases exists_linked_of_extend accepted with ⟨skeletons, added, declared, links, divided⟩
  intro info member
  rw [divided] at member
  rcases List.mem_append.1 member with old | new
  · exact kept self extended info (isKeptBy_of_append divided) (holds info old)
  · exact kept skeletons extended info (skeletons_isKeptBy declared links divided)
      (forall_of_forall₂ (linked skeletons) links info new)

/--
What holds of a class that is linked to skeletons, and stays so where the known classes are kept,
holds of each class of a loaded catalog.
-/
theorem IsLoaded.forall_classes {self : Catalog} (loaded : self.IsLoaded) :
    ∀ info ∈ self.classes, property self info := by
  induction loaded with
  | empty => exact List.forall_mem_nil _
  | extend _ accepted ih => exact forall_classes_of_extend linked kept ih accepted

end

/-- The supertypes in a loaded catalog are built like such of their classes. -/
theorem IsLoaded.hasLinkedSupertypes {self : Catalog} (loaded : self.IsLoaded) :
    self.HasLinkedSupertypes := by
  refine loaded.forall_classes (fun _ _ _ => Links.isSupertypeOver) ?_
  intro earlier later info keeps built supertype isSupertype
  exact (built supertype isSupertype).kept fun _ => keeps.arity

/-- An array class has no other supertypes than the three that any of them can have. -/
theorem mem_supertypes_of_isArray {self : Catalog} {named : ClassName} {supertype : Ty}
    (isArray : named.isArray = true) (isSupertype : supertype ∈ self.supertypes named) :
    ∃ name ∈ ClassName.object.name :: arrayInterfaces, supertype = .nominal (.plain name) := by
  simp only [supertypes, superclass, interfaces, isArray, if_true] at isSupertype
  split at isSupertype
  · rcases List.mem_cons.1 isSupertype with rfl | isInterface
    · exact ⟨_, List.mem_cons_self, rfl⟩
    · rcases List.mem_map.1 isInterface with ⟨name, isDeclared, rfl⟩
      exact ⟨name, List.mem_cons_of_mem _ (List.mem_filter.1 isDeclared).1, rfl⟩
  · cases isSupertype

/-- A supertype is one of those that array classes have, or declared by the class. -/
theorem mem_supertypes_cases {self : Catalog} {named : ClassName} {supertype : Ty}
    (isSupertype : supertype ∈ self.supertypes named) :
    (∃ name ∈ ClassName.object.name :: arrayInterfaces, supertype = .nominal (.plain name)) ∨
      ∃ info, self.get? named = some info ∧
        supertype ∈ info.superclass.toList ++ info.interfaces := by
  cases isArray : named.isArray with
  | true => exact Or.inl (mem_supertypes_of_isArray isArray isSupertype)
  | false =>
      cases found : self.get? named with
      | none =>
          rw [supertypes_of_get?_none isArray found] at isSupertype
          cases isSupertype
      | some info =>
          rw [supertypes_of_get? found] at isSupertype
          exact Or.inr ⟨info, rfl, isSupertype⟩

/-- The supertypes of a class, of an array class as well, are built over its type parameters. -/
theorem HasLinkedSupertypes.isSupertypeOver {self : Catalog} (linked : self.HasLinkedSupertypes)
    {named : ClassName} {supertype : Ty} (isSupertype : supertype ∈ self.supertypes named) :
    self.IsSupertypeOver (self.typeParameters named) supertype := by
  rcases mem_supertypes_cases isSupertype with ⟨name, isName, rfl⟩ | ⟨info, found, isDeclared⟩
  · have declarable : ∀ name ∈ ClassName.object.name :: arrayInterfaces,
        (ClassName.plain name).isPrimitive = false := by
      decide
    exact isSupertypeOver_plain (declarable name isName)
  · have isParameters : self.typeParameters named = info.typeParameters := by
      simp [typeParameters, found]
    rw [isParameters]
    exact linked info (mem_classes_of_get? found) supertype isDeclared

end Catalog

end NominalTypes
