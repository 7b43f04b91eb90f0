import NominalTypes.Proofs.Grammar.Soundness
import NominalTypes.Proofs.Ty.Canonical

/-!
# The types that text can denote

What a derivation denotes in a scope is built from known classes and variables in scope. A class is
applied to as many arguments as it has type parameters, array types are built over what is no
wildcard and no array, and the bounds of wildcards are no wildcards. What all denoted types have in
common follows from this by induction.
-/

namespace NominalTypes

/-- The types that are built from what is known in a scope in the way of the grammar. -/
inductive Scope.IsDenotable (scope : Scope) : Ty → Prop where
  | nominal {named : ClassName} (contained : scope.catalog.contains named = true)
      (plain : named.dims = 0) : IsDenotable scope (.nominal named)
  | var {parameter : TypeVariable} (inScope : parameter ∈ scope.parameters) :
      IsDenotable scope (.var parameter)
  | parameterized {raw : ClassName} {arguments : List Ty}
      (contained : scope.catalog.contains raw = true) (plain : raw.dims = 0)
      (arity : scope.catalog.arity raw = arguments.length) (nonempty : arguments ≠ [])
      (denotable : ∀ argument ∈ arguments, IsDenotable scope argument) :
      IsDenotable scope (.parameterized ((scope.catalog.enclosing? raw).map .nominal) raw arguments)
  | array {element : Ty} {dims : Nat} (fits : dims ≤ 255) (bare : element.isArray = false)
      (concrete : element.isWildcard = false) (denotable : IsDenotable scope element) :
      IsDenotable scope (.arrayOfTimes dims element)
  | wildcard {upper lower : List Ty}
      (flat : ∀ bound ∈ upper ++ lower, bound.isWildcard = false)
      (upperDenotable : ∀ bound ∈ upper, IsDenotable scope bound)
      (lowerDenotable : ∀ bound ∈ lower, IsDenotable scope bound) :
      IsDenotable scope (.wildcardOf upper lower)

namespace Catalog

/-- A class that is applied has as many type parameters as there are arguments, at least one. -/
def FitsArity (self : Catalog) : Ty → Prop
  | .parameterized _ raw arguments => arguments ≠ [] ∧ self.arity raw = arguments.length
  | _ => True

/-- The classes in an expression are known, but for the one that bounds a wildcard implicitly. -/
structure KnowsClasses (catalog : Catalog) (ty : Ty) : Prop where
  whole : ∀ named, ty = .nominal named → catalog.contains named = true
  inner : ∀ named ∈ ty.classes, named = .object ∨ catalog.contains named = true

variable {catalog : Catalog}

theorem knowsClasses_of_inner {ty : Ty} (compound : ty.asClass? = none)
    (inner : ∀ named ∈ ty.classes, named = .object ∨ catalog.contains named = true) :
    catalog.KnowsClasses ty where
  whole := by
    rintro named rfl
    cases compound
  inner := inner

/--
An array class is known when its element is, and these have the same name, so that arrays over known
classes are known.
-/
theorem KnowsClasses.arrayOf {component : Ty} (known : catalog.KnowsClasses component) :
    catalog.KnowsClasses (.arrayOf component) := by
  cases component with
  | array | parameterized | var | wildcard => exact knowsClasses_of_inner rfl known.inner
  | nominal named =>
      have isKnown := known.whole named rfl
      by_cases room : named.dims < 255
      · simp only [Ty.arrayOf, ClassName.arrayOf?, room, dif_pos]
        refine ⟨?_, List.forall_mem_singleton.2 (Or.inr isKnown)⟩
        rintro _ ⟨⟩
        exact isKnown
      · simp only [Ty.arrayOf, ClassName.arrayOf?, room, dif_neg, not_false_iff]
        exact knowsClasses_of_inner rfl known.inner

theorem KnowsClasses.arrayOfTimes {component : Ty} (known : catalog.KnowsClasses component)
    (dims : Nat) : catalog.KnowsClasses (.arrayOfTimes dims component) := by
  induction dims generalizing component with
  | zero => exact known
  | succ dims ih => exact ih known.arrayOf

end Catalog

namespace Ty

theorem isWildcard_arrayOf (component : Ty) : (arrayOf component).isWildcard = false := by
  cases component with
  | array | parameterized | var | wildcard => rfl
  | nominal named =>
      rcases arrayOf_nominal named with ⟨arrayClass, isClass⟩ | isArray
      · rw [isClass]
        rfl
      · rw [isArray]
        rfl

theorem isWildcard_arrayOfTimes {component : Ty} (concrete : component.isWildcard = false)
    (dims : Nat) : (arrayOfTimes dims component).isWildcard = false := by
  induction dims generalizing component with
  | zero => exact concrete
  | succ dims ih => exact ih (isWildcard_arrayOf component)

end Ty

namespace Scope

variable {scope : Scope}

/-- What a name denotes with its arguments is denotable, and neither an array nor a wildcard. -/
theorem isDenotable_of_applied? {segments : List String} {referent : Referent} {types : List Ty}
    {element : Ty} (resolved : scope.resolve segments = .ok referent)
    (denotable : ∀ ty ∈ types, scope.IsDenotable ty)
    (isElement : referent.applied? scope.catalog types = some element) :
    scope.IsDenotable element ∧ element.isArray = false ∧ element.isWildcard = false := by
  have known := resolve_isKnownIn resolved
  cases types with
  | nil =>
      cases isElement
      cases referent with
      | ofVariable parameter => exact ⟨.var known, rfl, rfl⟩
      | ofClass named =>
          rcases known with ⟨contained, plain⟩
          exact ⟨.nominal contained plain, by simp [Referent.toTy, Ty.isArray,
            ClassName.isArray, plain], rfl⟩
  | cons first rest =>
      cases referent with
      | ofVariable parameter => cases isElement
      | ofClass raw =>
          rcases known with ⟨contained, plain⟩
          simp only [Referent.applied?, Option.ite_none_right_eq_some, Option.some.injEq]
            at isElement
          rcases isElement with ⟨arity, rfl⟩
          exact ⟨.parameterized contained plain arity (by simp) denotable, rfl, rfl⟩

/--
What a derivation denotes is denotable, on every number of nesting levels. One that starts with a
name denotes no wildcard, so that it can be a bound.
-/
theorem isDenotable_of_meaning? {levels : Nat} {tree : TypeTree} {ty : Ty}
    (isMeaning : tree.meaning? scope levels = some ty) : scope.IsDenotable ty := by
  refine @TypeTree.meaning?_induct scope levels
    (fun _ _ ty => scope.IsDenotable ty ∧ ty.isWildcard = false)
    (fun _ _ ty => scope.IsDenotable ty ∧ ty.isWildcard = false)
    (fun _ _ ty => scope.IsDenotable ty)
    ?named (fun isBound => isBound) And.left ?wildcard tree ty isMeaning
  case named =>
    intro levels first further inner arguments outer referent types element resolved areDenotable
      isElement fits
    have denotable : ∀ ty ∈ types, scope.IsDenotable ty := by
      refine forall_of_forall₂ ?_ areDenotable
      exact fun _ _ isDenotable => isDenotable
    rcases isDenotable_of_applied? resolved denotable isElement with
      ⟨denotable, bare, concrete⟩
    exact ⟨.array fits bare concrete denotable, Ty.isWildcard_arrayOfTimes concrete _⟩
  case wildcard =>
    intro levels upper lower uppers lowers upperBounds lowerBounds
    have areUpper : ∀ bound ∈ uppers, scope.IsDenotable bound ∧ bound.isWildcard = false := by
      refine forall_of_forall₂ ?_ upperBounds
      exact fun _ _ isBound => isBound
    have areLower : ∀ bound ∈ lowers, scope.IsDenotable bound ∧ bound.isWildcard = false := by
      refine forall_of_forall₂ ?_ lowerBounds
      exact fun _ _ isBound => isBound
    refine .wildcard ?_ (fun bound member => (areUpper bound member).1)
      (fun bound member => (areLower bound member).1)
    intro bound member
    rcases List.mem_append.1 member with isUpper | isLower
    · exact (areUpper bound isUpper).2
    · exact (areLower bound isLower).2

/-- Every type that is read is denotable. -/
theorem isDenotable_of_parse {depth : Nat} {text : String} {ty : Ty}
    (read : scope.parse depth text = .ok ty) : scope.IsDenotable ty := by
  rcases exists_tree_of_parse read with ⟨tree, -, isMeaning⟩
  exact isDenotable_of_meaning? isMeaning

namespace IsDenotable

variable {ty : Ty}

/-- Denotable types are in canonical form. -/
theorem isCanonical (denotable : scope.IsDenotable ty) : ty.IsCanonical := by
  induction denotable with
  | nominal | var => simp
  | @parameterized raw arguments _ _ _ _ _ ih =>
      refine Ty.isCanonical_parameterized.2 ⟨?_, ih⟩
      intro owner isOwner
      rcases Option.map_eq_some_iff.1 isOwner with ⟨outer, -, rfl⟩
      exact Ty.isCanonical_nominal outer
  | array _ _ _ _ ih => exact Ty.arrayOfTimes_isCanonical ih _
  | wildcard _ _ _ upperIh lowerIh =>
      exact Ty.isCanonical_wildcard.2 ⟨Ty.boundsOrObject_isCanonical upperIh, lowerIh⟩

/-- The variables of a denotable type are in scope. -/
theorem mem_parameters (denotable : scope.IsDenotable ty) :
    ∀ parameter ∈ ty.occurrences, parameter ∈ scope.parameters := by
  induction denotable with
  | nominal => simp [Ty.occurrences]
  | var inScope => simpa [Ty.occurrences] using inScope
  | @parameterized raw arguments _ _ _ _ _ ih =>
      refine Ty.forall_occurrences_parameterized.2 ⟨?_, ih⟩
      intro owner isOwner
      rcases Option.map_eq_some_iff.1 isOwner with ⟨outer, -, rfl⟩
      exact List.forall_mem_nil _
  | array _ _ _ _ ih =>
      rw [Ty.occurrences_arrayOfTimes]
      exact ih
  | @wildcard upper lower _ _ _ upperIh lowerIh =>
      have written : ∀ parameter ∈ (Ty.wildcard upper lower).occurrences,
          parameter ∈ scope.parameters :=
        Ty.forall_occurrences_wildcard.2 ⟨upperIh, lowerIh⟩
      rwa [Ty.wildcardOf, Ty.occurrences, Ty.occurrencesAll_boundsOrObject]

/-- The classes of a denotable type are known. -/
theorem knowsClasses (denotable : scope.IsDenotable ty) : scope.catalog.KnowsClasses ty := by
  induction denotable with
  | @nominal named contained _ =>
      refine ⟨?_, List.forall_mem_singleton.2 (Or.inr contained)⟩
      rintro _ ⟨⟩
      exact contained
  | var => exact Catalog.knowsClasses_of_inner rfl (by simp [Ty.classes])
  | @parameterized raw arguments contained _ _ _ _ ih =>
      apply Catalog.knowsClasses_of_inner rfl
      intro named isClass
      simp only [Ty.classes, List.mem_append, List.mem_cons, Ty.mem_classesOwner,
        Ty.mem_classesAll] at isClass
      rcases isClass with ⟨owner, isOwner, isClass⟩ | rfl | ⟨argument, isArgument, isClass⟩
      · rcases Option.map_eq_some_iff.1 isOwner with ⟨outer, isEnclosing, rfl⟩
        cases List.mem_singleton.1 isClass
        exact Or.inr (Option.filter_eq_some_iff.1 isEnclosing).2
      · exact Or.inr contained
      · exact (ih argument isArgument).inner named isClass
  | array _ _ _ _ ih => exact ih.arrayOfTimes _
  | @wildcard upper lower _ _ _ upperIh lowerIh =>
      apply Catalog.knowsClasses_of_inner rfl
      intro named isClass
      rw [Ty.wildcardOf, Ty.classes, List.mem_append, Ty.mem_classesAll, Ty.mem_classesAll]
        at isClass
      rcases isClass with ⟨bound, isBound, isClass⟩ | ⟨bound, isBound, isClass⟩
      · cases upper with
        | nil =>
            cases List.mem_singleton.1 isBound
            exact Or.inl (List.mem_singleton.1 isClass)
        | cons first rest => exact (upperIh bound isBound).inner named isClass
      · exact (lowerIh bound isBound).inner named isClass

/-- Every class that a denotable type applies has as many arguments as type parameters. -/
theorem fitsArity (denotable : scope.IsDenotable ty) :
    ∀ part ∈ ty.parts, scope.catalog.FitsArity part := by
  induction denotable with
  | nominal | var => simp [Ty.parts, Catalog.FitsArity]
  | @parameterized raw arguments _ _ arity nonempty _ ih =>
      refine Ty.forall_parts_parameterized.2 ⟨⟨nonempty, arity⟩, ?_, ih⟩
      intro owner isOwner
      rcases Option.map_eq_some_iff.1 isOwner with ⟨outer, -, rfl⟩
      exact List.forall_mem_singleton.2 trivial
  | array _ _ _ _ ih =>
      intro part isPart
      rcases Ty.mem_parts_arrayOfTimes isPart with isArray | isPart
      · cases part with
        | nominal | array => trivial
        | parameterized | var | wildcard => cases isArray
      · exact ih part isPart
  | @wildcard upper lower _ _ _ upperIh lowerIh =>
      have bounds : ∀ bound ∈ Ty.boundsOrObject upper, ∀ part ∈ bound.parts,
          scope.catalog.FitsArity part := by
        cases upper with
        | nil => simp [Ty.boundsOrObject, Ty.object, Ty.parts, Catalog.FitsArity]
        | cons first rest => exact upperIh
      exact Ty.forall_parts_wildcard.2 ⟨trivial, bounds, lowerIh⟩

end IsDenotable

end Scope

end NominalTypes
