import NominalTypes.Proofs.Hierarchy.ClassOrder
import NominalTypes.Proofs.Hierarchy.Containment

/-!
# Assignable types have assignable erasures

A comparison of types climbs from a class to one of its generic supertypes after the other, where
the comparison of classes looks at their erasures. Each climb is one step of the graph of erased
supertypes, so that a type is assignable to another one only if its erasure is, provided that no
declared class goes by the name of a primitive type.
-/

namespace NominalTypes

theorem exists_of_anyAnswer {item : Type} {test : item → Option Bool} {items : List item}
    (given : anyAnswer test items = some true) : ∃ item ∈ items, test item = some true := by
  induction items with
  | nil => cases given
  | cons first rest ih =>
      simp only [anyAnswer] at given
      split at given
      · rcases ih given with ⟨item, member, isTrue⟩
        exact ⟨item, List.mem_cons_of_mem _ member, isTrue⟩
      · exact ⟨first, List.mem_cons_self, given⟩

namespace Catalog

variable {catalog : Catalog}

/-- No declared class goes by the keyword of a primitive type. -/
def ReservesKeywords (self : Catalog) : Prop :=
  ∀ name ∈ self.names, Primitive.ofKeyword? name = none

theorem ReservesKeywords.isPrimitive (reserves : catalog.ReservesKeywords) {named : ClassName}
    {info : ClassInfo} (found : catalog.get? named = some info) : named.isPrimitive = false := by
  have isName : named.name ∈ catalog.names := by
    rw [← get?_name found]
    exact List.mem_map_of_mem (mem_classes_of_get? found)
  simp [ClassName.isPrimitive, ClassName.asPrimitive?, reserves _ isName]

theorem ReservesKeywords.isPrimitive_of_extends (reserves : catalog.ReservesKeywords)
    {named supertype : ClassName} (edge : catalog.Extends named supertype) :
    named.isPrimitive = false := by
  rcases List.mem_filterMap.1 edge with ⟨declared, isDeclared, -⟩
  cases isArray : named.isArray with
  | true => exact ClassName.isPrimitive_of_isArray isArray
  | false =>
      cases found : catalog.get? named with
      | none =>
          rw [supertypes_of_get?_none isArray found] at isDeclared
          cases isDeclared
      | some info => exact reserves.isPrimitive found

/-- No primitive type is a supertype. -/
theorem ReservesKeywords.isPrimitive_supertype (reserves : catalog.ReservesKeywords)
    (linked : catalog.HasLinkedSupertypes) {named supertype : ClassName}
    (edge : catalog.Extends named supertype) : supertype.isPrimitive = false := by
  rcases linked.extends_cases edge with ⟨-, reference⟩ | ⟨info, found⟩
  · exact reference
  · exact reserves.isPrimitive found

/-- What is assignable from a supertype of a class is assignable from the class. -/
theorem HasLinkedSupertypes.classAssignable_of_extends (linked : catalog.HasLinkedSupertypes)
    (reserves : catalog.ReservesKeywords) {target named supertype : ClassName}
    (edge : catalog.Extends named supertype)
    (holds : catalog.classAssignable target supertype = true) :
    catalog.classAssignable target named = true := by
  have notPrimitive := reserves.isPrimitive_supertype linked edge
  have reference := reserves.isPrimitive_of_extends edge
  rcases linked.classAssignable_iff.1 holds with
    rfl | ⟨wide, narrow, -, isNarrow, -⟩ | ⟨fewer, targetReference, -, accepts⟩
  · exact linked.classAssignable_of_reaches (.step edge (.refl target)) reference notPrimitive
  · rw [ClassName.isPrimitive_eq_false_iff, isNarrow] at notPrimitive
    cases notPrimitive
  · have plain : supertype.dims = 0 := by
      simpa [ClassName.isArray] using linked.isArray_eq_false edge
    have targetPlain : target.dims = 0 := by omega
    rw [targetPlain, ClassName.strip_zero] at accepts
    refine linked.classAssignable_iff.2 (Or.inr (Or.inr ⟨by omega, targetReference, ?_⟩))
    rw [targetPlain, ClassName.strip_zero]
    refine ⟨reference, ?_⟩
    rcases accepts with isObject | path
    · exact Or.inl isObject
    · exact Or.inr (.step edge path)

/--
What a comparison of some depth finds assignable has assignable erasures. The class of the source is
reached over one step more than the supertype that fits.
-/
theorem HasLinkedSupertypes.classAssignable_of_assignableWithin
    (linked : catalog.HasLinkedSupertypes) (reserves : catalog.ReservesKeywords) {depth : Nat}
    {target source : Ty} (holds : catalog.assignableWithin depth target source = some true)
    {targetClass sourceClass : ClassName} (isTarget : target.erase = .ok targetClass)
    (isSource : source.erase = .ok sourceClass) :
    catalog.classAssignable targetClass sourceClass = true := by
  induction depth generalizing source sourceClass with
  | zero => cases holds
  | succ depth ih =>
      by_cases same : target = source
      · subst same
        rw [isTarget] at isSource
        cases isSource
        exact linked.classAssignable_iff.2 (Or.inl rfl)
      · rw [assignableWithin_succ] at holds
        simp only [comparisonStep, if_neg same] at holds
        have climbs : ∀ {named}, source = .nominal named →
            anyAnswer (fun supertype => catalog.assignableWithin depth target supertype)
              (catalog.supertypes named) = some true →
            catalog.classAssignable targetClass sourceClass = true := by
          rintro named rfl found
          cases isSource
          rcases exists_of_anyAnswer found with ⟨supertype, isSupertype, fits⟩
          rcases linked.exists_erase isSupertype with ⟨raw, isClass, edge, -⟩
          exact linked.classAssignable_of_extends reserves edge
            (ih fits (erase_of_supertypeClass? isClass))
        cases target with
        | wildcard => cases isTarget
        | nominal named =>
            cases isTarget
            cases source with
            | nominal | parameterized =>
                cases isSource
                simpa using holds
            | array | var | wildcard => cases holds
        | array | var =>
            cases source with
            | nominal => exact climbs rfl holds
            | array | parameterized | var | wildcard => cases holds
        | parameterized owner raw arguments =>
            cases isTarget
            cases source with
            | nominal => exact climbs rfl holds
            | array | var | wildcard => cases holds
            | parameterized =>
                cases isSource
                simp only at holds
                split at holds
                · next related => exact (Bool.and_eq_true_iff.1 related).1
                · cases holds

/-- A type is assignable to another one only if its erasure is assignable to the other's. -/
theorem classAssignable_of_assignable (loaded : catalog.IsLoaded)
    (reserves : catalog.ReservesKeywords) {target source : Ty}
    (holds : catalog.assignable target source = .ok true) {targetClass sourceClass : ClassName}
    (isTarget : target.erase = .ok targetClass) (isSource : source.erase = .ok sourceClass) :
    catalog.classAssignable targetClass sourceClass = true := by
  rcases assignable_eq_ok_iff.1 holds with ⟨depth, found⟩
  exact loaded.hasLinkedSupertypes.classAssignable_of_assignableWithin reserves found isTarget
    isSource

theorem classAssignable_shape_circle :
    shapes.ReservesKeywords ∧
      shapes.assignable (sampleOf "a.Shape" .unboundedWildcard) (.nominal (.plain "a.Circle")) =
        .ok true ∧
      shapes.classAssignable (.plain "a.Shape") (.plain "a.Circle") = true := by
  have reserves : shapes.ReservesKeywords := by
    simp only [ReservesKeywords]
    decide +kernel
  have holds : shapes.assignable (sampleOf "a.Shape" .unboundedWildcard)
      (.nominal (.plain "a.Circle")) = .ok true := by
    decide +kernel
  exact ⟨reserves, holds, classAssignable_of_assignable isLoaded_shapes reserves holds rfl rfl⟩

end Catalog

end NominalTypes
