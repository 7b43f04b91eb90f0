import NominalTypes.Hierarchy.Ancestry

/-!
# Paths of supertypes

The graph of erased supertypes of a catalog: which classes can be reached from which, and whether
some class reaches itself over at least one supertype. The main statement is
`Catalog.mem_ancestors_iff`: the ancestors that are computed for a class are all those reached.
-/

namespace NominalTypes

namespace Catalog

/-- The class is the erasure of one of the other class's supertypes. -/
def Extends (self : Catalog) (named supertype : ClassName) : Prop :=
  supertype ∈ self.erasedSupertypes named

/-- The class is reached from the other one over zero or more supertypes. -/
def Reaches (self : Catalog) : ClassName → ClassName → Prop :=
  Closure.Reaches self.erasedSupertypes

/-- No class is reached from one of its own supertypes. -/
def IsAcyclic (self : Catalog) : Prop :=
  ∀ named supertype, self.Extends named supertype → ¬self.Reaches supertype named

/-- The classes that some supertype of the catalog erases to, those of array classes included. -/
def erasedCarrier (self : Catalog) : List ClassName :=
  (self.declaredSupertypes.filterMap fun supertype => supertype.erase.toOption) ++
    (.object :: arrayInterfaces.map ClassName.plain)

theorem Reaches.trans {self : Catalog} {first second third : ClassName}
    (left : self.Reaches first second) (right : self.Reaches second third) :
    self.Reaches first third :=
  Closure.Reaches.trans left right

theorem supertypes_of_get? {self : Catalog} {named : ClassName} {info : ClassInfo}
    (found : self.get? named = some info) :
    self.supertypes named = info.superclass.toList ++ info.interfaces := by
  have plain : named.isArray = false := by simp [ClassName.isArray, get?_dims found]
  simp [supertypes, superclass, interfaces, plain, found]

theorem supertypes_of_get?_none {self : Catalog} {named : ClassName}
    (plain : named.isArray = false) (missing : self.get? named = none) :
    self.supertypes named = [] := by
  simp [supertypes, superclass, interfaces, plain, missing]

/-- Every step over a supertype ends in the carrier. -/
theorem Extends.mem_erasedCarrier {self : Catalog} {named supertype : ClassName}
    (edge : self.Extends named supertype) : supertype ∈ self.erasedCarrier := by
  unfold Extends erasedSupertypes at edge
  obtain ⟨declared, member, erased⟩ := List.mem_filterMap.1 edge
  cases plain : named.isArray with
  | false =>
      cases found : self.get? named with
      | none => simp [supertypes_of_get?_none plain found] at member
      | some info =>
          rw [supertypes_of_get? found] at member
          have isDeclared : declared ∈ self.declaredSupertypes :=
            List.mem_flatMap.2 ⟨info, mem_classes_of_get? found, member⟩
          exact List.mem_append_left _ (List.mem_filterMap.2 ⟨declared, isDeclared, erased⟩)
  | true =>
      refine List.mem_append_right _ ?_
      rcases List.mem_append.1 member with isSuperclass | isInterface
      · by_cases known : self.contains named = true
        · simp only [superclass, plain, known, if_true, Option.toList_some,
            List.mem_singleton] at isSuperclass
          subst isSuperclass
          cases erased
          exact List.mem_cons_self
        · simp [superclass, plain, known] at isSuperclass
      · by_cases known : self.contains named = true
        · simp only [interfaces, plain, known, if_true, List.mem_map,
            List.mem_filter] at isInterface
          obtain ⟨name, ⟨isArrayInterface, _⟩, rfl⟩ := isInterface
          cases erased
          exact List.mem_cons_of_mem _ (List.mem_map.2 ⟨name, isArrayInterface, rfl⟩)
        · simp [interfaces, plain, known] at isInterface

theorem length_erasedCarrier_le (self : Catalog) :
    self.erasedCarrier.length ≤ self.supertypeCount := by
  have declared := List.length_filterMap_le (fun supertype : Ty => supertype.erase.toOption)
    self.declaredSupertypes
  simp only [erasedCarrier, supertypeCount, List.length_append, List.length_cons, List.length_map,
    arrayInterfaces, List.length_nil]
  omega

/-- The ancestors of a class are the classes that are reached from it, on cyclic graphs too. -/
theorem mem_ancestors_iff {self : Catalog} {named ancestor : ClassName} :
    ancestor ∈ self.ancestors named ↔ self.Reaches named ancestor :=
  mem_closure_iff (fun _ _ edge => Extends.mem_erasedCarrier edge)
    (Nat.lt_succ_of_le self.length_erasedCarrier_le)

end Catalog

end NominalTypes
