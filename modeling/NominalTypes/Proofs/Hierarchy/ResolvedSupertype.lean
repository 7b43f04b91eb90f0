import NominalTypes.Proofs.Hierarchy.ClassOrder
import NominalTypes.Proofs.Hierarchy.Containment

/-!
# Assignability to a resolved supertype

The search for an ancestor of an applied class finds the ancestor with the arguments that it
inherits. An applied class is always assignable to an ancestor without arguments. To one with
arguments it is assignable only if these accept the arguments of the class itself, place by place:
the comparison of applied classes does not follow their arguments along the supertypes.
-/

namespace NominalTypes

namespace Catalog

variable {catalog : Catalog} {named ancestor : ClassName}

/-- A supertype that names a class is the class or applies it. -/
theorem eq_of_supertypeClass? {ty : Ty} (isClass : supertypeClass? ty = some ancestor) :
    ty = .nominal ancestor ∨ ∃ owner arguments, ty = .parameterized owner ancestor arguments := by
  cases ty with
  | array | var | wildcard => cases isClass
  | nominal other =>
      simp only [supertypeClass?, Option.ite_none_left_eq_some, Option.some.injEq] at isClass
      rw [isClass.2]
      exact Or.inl rfl
  | parameterized owner other arguments =>
      cases isClass
      exact Or.inr ⟨owner, arguments, rfl⟩

/-- What is resolved for an applied class is the type itself or a supertype found for its class. -/
theorem HasLinkedSupertypes.reaches_of_resolveSupertypeOf (linked : catalog.HasLinkedSupertypes)
    {owner : Option Ty} {arguments : List Ty} {found : Ty}
    (resolved : catalog.resolveSupertypeOf (.parameterized owner named arguments) ancestor =
      .ok (some found)) :
    supertypeClass? found = some ancestor ∧ catalog.Reaches named ancestor := by
  rw [resolveSupertypeOf] at resolved
  split at resolved
  · next same =>
    cases resolved
    subst same
    exact ⟨rfl, .refl named⟩
  · exact linked.reaches_of_findSupertype resolved

theorem assignable_self (catalog : Catalog) (ty : Ty) : catalog.assignable ty ty = .ok true :=
  assignable_eq_ok_iff.2 ⟨1, by simp [assignableWithin]⟩

/-- An applied class is compared with a class without arguments by its class alone. -/
theorem assignable_nominal_parameterized (catalog : Catalog) (target : ClassName)
    (owner : Option Ty) (raw : ClassName) (arguments : List Ty) :
    catalog.assignable (.nominal target) (.parameterized owner raw arguments) =
      .ok (catalog.classAssignable target raw) :=
  assignable_eq_ok_iff.2 ⟨1, by simp [assignableWithin]⟩

/-- Unless a wildcard stands in the same place of both, applied classes are compared by the rule. -/
theorem assignable_eq_true_iff_acceptsParameterized {targetOwner sourceOwner : Option Ty}
    {targetRaw sourceRaw : ClassName} {targets sources : List Ty}
    (different : Ty.parameterized targetOwner targetRaw targets ≠
      .parameterized sourceOwner sourceRaw sources)
    (unshared : ¬SharesWildcard targets sources) :
    catalog.assignable (.parameterized targetOwner targetRaw targets)
        (.parameterized sourceOwner sourceRaw sources) = .ok true ↔
      catalog.AcceptsParameterized targetRaw targets sourceRaw sources := by
  have each : ∀ pair ∈ targets.zip sources,
      (∃ depth, argumentAccepts (catalog.assignableWithin depth) pair = some true) ↔
        catalog.Accepts pair.1 pair.2 := by
    intro pair isPair
    rw [argumentAccepts_iff, Accepts]
    constructor
    · rintro (⟨-, same⟩ | contained)
      · exact Or.inl same
      · exact Or.inr contained
    · rintro (same | contained)
      · refine Or.inl ⟨?_, same⟩
        rw [← Bool.not_eq_true]
        intro isWildcard
        exact unshared ⟨pair, isPair, isWildcard, same⟩
      · exact Or.inr contained
  rw [assignable_parameterized_eq_true different, AcceptsParameterized]
  constructor
  · rintro ⟨classes, lengths, accepted⟩
    refine ⟨classes, lengths, ?_⟩
    intro pair isPair
    exact (each pair isPair).1 (accepted pair isPair)
  · rintro ⟨classes, lengths, accepted⟩
    refine ⟨classes, lengths, ?_⟩
    intro pair isPair
    exact (each pair isPair).2 (accepted pair isPair)

theorem accepts_of_mem_zip_self (catalog : Catalog) {arguments : List Ty} {pair : Ty × Ty}
    (isPair : pair ∈ arguments.zip arguments) : catalog.Accepts pair.1 pair.2 := by
  have paired : arguments.zip arguments = arguments.map fun argument => (argument, argument) := by
    simpa using List.zip_map' (f := id) (g := id) (l := arguments)
  rw [paired] at isPair
  rcases List.mem_map.1 isPair with ⟨argument, -, rfl⟩
  exact Or.inl rfl

/--
An applied class is assignable to the supertype that is resolved for it, if this has no arguments,
and else just if the resolved arguments accept those of the class in their places.
-/
theorem assignable_resolveSupertypeOf (loaded : catalog.IsLoaded) {owner : Option Ty}
    {arguments : List Ty} {found : Ty}
    (resolved : catalog.resolveSupertypeOf (.parameterized owner named arguments) ancestor =
      .ok (some found))
    (namedReference : named.isPrimitive = false) (ancestorReference : ancestor.isPrimitive = false) :
    (found = .nominal ancestor ∧
        catalog.assignable found (.parameterized owner named arguments) = .ok true) ∨
      ∃ foundOwner targets, found = .parameterized foundOwner ancestor targets ∧
        (found = .parameterized owner named arguments ∨ ¬SharesWildcard targets arguments →
          (catalog.assignable found (.parameterized owner named arguments) = .ok true ↔
            targets.length = arguments.length ∧
              ∀ pair ∈ targets.zip arguments, catalog.Accepts pair.1 pair.2)) := by
  have linked := loaded.hasLinkedSupertypes
  rcases linked.reaches_of_resolveSupertypeOf resolved with ⟨isClass, path⟩
  have classes : catalog.classAssignable ancestor named = true :=
    linked.classAssignable_of_reaches path namedReference ancestorReference
  rcases eq_of_supertypeClass? isClass with rfl | ⟨foundOwner, targets, rfl⟩
  · left
    rw [assignable_nominal_parameterized, classes]
    exact ⟨rfl, rfl⟩
  · right
    refine ⟨foundOwner, targets, rfl, ?_⟩
    intro unequal
    by_cases same : Ty.parameterized foundOwner ancestor targets =
        .parameterized owner named arguments
    · cases same
      refine iff_of_true (catalog.assignable_self _) ⟨rfl, ?_⟩
      intro pair isPair
      exact catalog.accepts_of_mem_zip_self isPair
    · have unshared := unequal.resolve_left same
      rw [assignable_eq_true_iff_acceptsParameterized same unshared, AcceptsParameterized]
      simp [classes]

/-- Generic classes that pass their argument on, one of them to a class with a primitive name. -/
def crateDocument : Document where
  classes := [
    { name := "java.lang.Object" },
    { name := "a.Container", kind := .interface, typeParameters := [{ name := "E" }] },
    { name := "a.Crate", typeParameters := [{ name := "T" }], interfaces := ["Container<T>"] },
    { name := "int", typeParameters := [{ name := "T" }] },
    { name := "a.Word", typeParameters := [{ name := "T" }], superclass := some "int<T>" }]

/-- The catalog of these classes. -/
def crates : Catalog := (Catalog.empty.extend crateDocument).toOption.getD .empty

theorem isLoaded_crates : crates.IsLoaded := isLoaded_getD crateDocument

theorem isAcyclic_crates : crates.IsAcyclic := by
  rw [isLoaded_crates.hasLinkedSupertypes.isAcyclic_iff]
  decide +kernel

theorem assignable_container_crate :
    crates.resolveSupertypeOf (sampleOf "a.Crate" .object) (.plain "a.Container") =
        .ok (some (sampleOf "a.Container" .object)) ∧
      (ClassName.plain "a.Crate").isPrimitive = false ∧
      (ClassName.plain "a.Container").isPrimitive = false ∧
      crates.assignable (sampleOf "a.Container" .object) (sampleOf "a.Crate" .object) =
        .ok true := by
  have resolved : crates.resolveSupertypeOf (sampleOf "a.Crate" .object) (.plain "a.Container") =
      .ok (some (sampleOf "a.Container" .object)) := by
    decide +kernel
  refine ⟨resolved, by decide, by decide, ?_⟩
  rcases assignable_resolveSupertypeOf isLoaded_crates resolved (by decide) (by decide) with
    ⟨isClass, -⟩ | ⟨foundOwner, targets, isFound, accepted⟩
  · cases isClass
  · cases isFound
    have unshared : ¬SharesWildcard [Ty.object] [Ty.object] := by
      rintro ⟨pair, isPair, isWildcard, -⟩
      cases List.mem_singleton.1 isPair
      cases isWildcard
    exact (accepted (Or.inr unshared)).2 ⟨rfl, List.forall_mem_singleton.2 (Or.inl rfl)⟩

/--
A class is not assignable to a resolved supertype that wraps its argument, nor are classes with the
names of primitive types assignable to their supertypes and from their subtypes.
-/
theorem not_assignable_resolved :
    (boxes.IsLoaded ∧ boxes.IsAcyclic ∧
      ({ catalog := boxes } : Scope).parse 4 "a.Box<int>" = .ok (sampleOf "a.Box" (.ofPrimitive .int)) ∧
      boxes.resolveSupertypeOf (sampleOf "a.Box" (.ofPrimitive .int)) (.plain "a.Container") =
        .ok (some (sampleOf "a.Container" (.arrayOf (.ofPrimitive .int)))) ∧
      boxes.assignable (sampleOf "a.Container" (.arrayOf (.ofPrimitive .int)))
        (sampleOf "a.Box" (.ofPrimitive .int)) = .ok false) ∧
    (crates.IsLoaded ∧ crates.IsAcyclic ∧
      ({ catalog := crates } : Scope).parse 4 "int<java.lang.Object>" =
        .ok (sampleOf "int" .object) ∧
      crates.resolveSupertypeOf (sampleOf "int" .object) .object = .ok (some .object) ∧
      crates.assignable .object (sampleOf "int" .object) = .ok false ∧
      ({ catalog := crates } : Scope).parse 4 "a.Word<java.lang.Object>" =
        .ok (sampleOf "a.Word" .object) ∧
      crates.resolveSupertypeOf (sampleOf "a.Word" .object) (.plain "int") =
        .ok (some (sampleOf "int" .object)) ∧
      crates.assignable (sampleOf "int" .object) (sampleOf "a.Word" .object) = .ok false) := by
  refine ⟨⟨isLoaded_boxes, isAcyclic_boxes, ?_⟩, isLoaded_crates, isAcyclic_crates, ?_⟩
  · decide +kernel
  · decide +kernel

end Catalog

end NominalTypes
