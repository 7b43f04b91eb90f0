import NominalTypes.Proofs.Hierarchy.ClassOrder

/-!
# Which ancestors are found

The search finds an ancestor just if it is reached, and what it finds erases to the ancestor. Apart
from `java.lang.Object`, primitive types and pairs of array types, which assignability treats in ways
of its own, the classes that a class is assignable to are those that it is resolved for.
-/

namespace NominalTypes

namespace Catalog

variable {catalog : Catalog} {named ancestor : ClassName}

/-- Among other reference types, a class is assignable to its ancestors. -/
theorem HasLinkedSupertypes.classAssignable_iff_reaches (linked : catalog.HasLinkedSupertypes)
    (namedReference : named.isPrimitive = false) (ancestorReference : ancestor.isPrimitive = false)
    (notObject : ancestor ≠ .object)
    (notArrays : ¬(named.isArray = true ∧ ancestor.isArray = true)) :
    catalog.classAssignable ancestor named = true ↔ catalog.Reaches named ancestor := by
  constructor
  · intro assignable
    rcases linked.classAssignable_iff.1 assignable with
      rfl | ⟨wide, _, isWide, -⟩ | ⟨fewer, -, -, accepted⟩
    · exact .refl ancestor
    · rw [ClassName.isPrimitive_eq_false_iff, isWide] at ancestorReference
      cases ancestorReference
    · have plain : ancestor.dims = 0 := by
        by_contra positive
        apply notArrays
        simp only [ClassName.isArray, decide_eq_true_eq]
        omega
      rw [plain, ClassName.strip_zero, ClassName.element_of_dims plain] at accepted
      exact accepted.resolve_left notObject
  · intro path
    exact linked.classAssignable_of_reaches path namedReference ancestorReference

/--
On an acyclic catalog resolution ends. It finds the ancestors of a class, in forms that erase to
them: the class itself and what is reached over supertypes, or what the class is assignable to.
-/
theorem exists_resolveSupertype (loaded : catalog.IsLoaded) (acyclic : catalog.IsAcyclic)
    (named ancestor : ClassName) :
    ∃ found, catalog.resolveSupertype named ancestor = .ok found ∧
      (found.isSome = true ↔ ancestor = named ∨
        ∃ supertype, catalog.Extends named supertype ∧ catalog.Reaches supertype ancestor) ∧
      (∀ ty ∈ found, ty.erase = .ok ancestor) ∧
      (named.isPrimitive = false → ancestor.isPrimitive = false → ancestor ≠ .object →
        ¬(named.isArray = true ∧ ancestor.isArray = true) →
          (found.isSome = true ↔ catalog.classAssignable ancestor named = true)) := by
  have linked := loaded.hasLinkedSupertypes
  rw [resolveSupertype]
  split
  · next same =>
    subst same
    refine ⟨some (.nominal named), rfl, by simp, by simp, ?_⟩
    intro _ _ _ _
    simp [classAssignable]
  · next different =>
    rcases answersWithin linked acyclic ancestor catalog.searchDepth named .empty
      (catalog.height_lt_searchDepth named) with ⟨found, isFound, isSome⟩
    have isReached : found.isSome = true ↔
        ∃ supertype, catalog.Extends named supertype ∧ catalog.Reaches supertype ancestor := by
      rw [isSome, linked.supertypeTowards_isSome_iff]
    refine ⟨found, isFound, by simp [isReached, Ne.symm different], ?_, ?_⟩
    · rintro ty rfl
      exact erase_of_supertypeClass? (linked.reaches_of_findSupertype isFound).1
    · intro namedReference ancestorReference notObject notArrays
      rw [isReached, linked.classAssignable_iff_reaches namedReference ancestorReference notObject
        notArrays]
      constructor
      · rintro ⟨supertype, edge, path⟩
        exact .step edge path
      · intro path
        exact path.exists_extends_of_ne different

/-- The cloneable values are found from a circle over its shape, and they take the circle. -/
theorem exists_resolveSupertype_circle :
    shapes.IsAcyclic ∧ shapes.Extends (.plain "a.Circle") (.plain "a.Shape") ∧
      ∃ found, shapes.resolveSupertype (.plain "a.Circle") (.plain "java.lang.Cloneable") =
          .ok (some found) ∧
        found.erase = .ok (.plain "java.lang.Cloneable") ∧
        shapes.classAssignable (.plain "java.lang.Cloneable") (.plain "a.Circle") = true := by
  have edge : shapes.Extends (.plain "a.Circle") (.plain "a.Shape") := by
    unfold Extends
    decide +kernel
  have path : shapes.Reaches (.plain "a.Shape") (.plain "java.lang.Cloneable") := by
    rw [← mem_ancestors_iff]
    decide +kernel
  rcases exists_resolveSupertype isLoaded_shapes isAcyclic_shapes (.plain "a.Circle")
    (.plain "java.lang.Cloneable") with ⟨found, resolved, isReached, erases, agrees⟩
  have isFound : found.isSome = true := isReached.2 (Or.inr ⟨.plain "a.Shape", edge, path⟩)
  have assignable := (agrees (by decide) (by decide) (by decide) (by decide)).1 isFound
  rcases Option.isSome_iff_exists.1 isFound with ⟨ty, rfl⟩
  exact ⟨isAcyclic_shapes, edge, ty, resolved, erases ty rfl, assignable⟩

end Catalog

end NominalTypes
