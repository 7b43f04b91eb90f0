import NominalTypes.Catalog.Construction
import NominalTypes.Proofs.Grammar.Names
import NominalTypes.Proofs.Hierarchy.Search

/-!
# Ancestors of applied classes

The search for an ancestor of an applied class follows the same supertypes as the search from the
class alone. What the one carries along is at each class what the other carries along with the type
parameters replaced by the arguments, so the answers differ in the same way: the ancestor of an
applied class is the ancestor of the class with the arguments in the place of its type parameters.
-/

namespace NominalTypes

namespace Bindings

variable {catalog : Catalog}

/-- For the parameters, the outer bindings after the inner ones are the joint bindings. -/
def ComposesOn (parameters : List TypeVariable) (outer inner joint : Bindings) : Prop :=
  ∀ parameter ∈ parameters,
    outer.replace (inner.replace (.var parameter)) = joint.replace (.var parameter)

theorem isEmpty_eq_false_of_get? {bindings : Bindings} {parameter : TypeVariable}
    (bound : (bindings.get? parameter).isSome = true) : bindings.isEmpty = false := by
  cases isEmpty : bindings.isEmpty with
  | false => rfl
  | true =>
      rw [get?_eq_none_of_isEmpty isEmpty] at bound
      cases bound

theorem isEmpty_forClass {raw : ClassName} {arguments : List Ty} (generic : catalog.arity raw ≠ 0)
    (arity : catalog.arity raw = arguments.length) :
    (forClass catalog raw arguments).isEmpty = false := by
  have nonempty : catalog.typeParameters raw ≠ [] := by
    intro none
    exact generic (List.length_eq_zero_iff.2 none)
  rcases List.exists_mem_of_ne_nil _ nonempty with ⟨parameter, member⟩
  exact isEmpty_eq_false_of_get? (get?_forClass_isSome arity member)

/-- Parameters that are bound to unbounded wildcards are bound to what has no variables. -/
theorem composesOn_unbounded (outer : Bindings) (parameters : List TypeVariable) :
    ComposesOn parameters outer
      (ofList (parameters.map fun parameter => (parameter, .unboundedWildcard)))
      (ofList (parameters.map fun parameter => (parameter, .unboundedWildcard))) := by
  intro parameter member
  simp only [replace, get?_ofList_const member, Option.getD_some]
  rfl

variable {parameters : List TypeVariable} {outer inner joint : Bindings}

/-- Bindings that compose on the parameters of a supertype compose on the supertype. -/
theorem ComposesOn.apply (composes : ComposesOn parameters outer inner joint)
    (nonempty : outer.isEmpty = false) {supertype : Ty}
    (built : catalog.IsSupertypeOver parameters supertype) :
    outer.apply (inner.apply supertype) = joint.apply supertype := by
  rw [apply_eq_replace built.canonical, apply_eq_replace built.canonical, apply_of_nonempty nonempty]
  apply replace_replace
  intro parameter occurs
  exact composes parameter (built.closed parameter occurs)

/-- Bindings that compose at a class compose at the classes of its supertypes. -/
theorem ComposesOn.bindingsAlong (composes : ComposesOn parameters outer inner joint)
    (nonempty : outer.isEmpty = false) {supertype : Ty} {raw : ClassName}
    (built : catalog.IsSupertypeOver parameters supertype)
    (isClass : Catalog.supertypeClass? supertype = some raw) :
    ComposesOn (catalog.typeParameters raw) outer
      (catalog.bindingsAlong (inner.apply supertype) raw)
      (catalog.bindingsAlong (joint.apply supertype) raw) := by
  cases supertype with
  | array | var | wildcard => cases isClass
  | nominal named =>
      rw [apply_nominal, apply_nominal]
      exact composesOn_unbounded outer (catalog.typeParameters raw)
  | parameterized owner other arguments =>
      cases isClass
      have sameArguments : arguments.map joint.apply =
          (arguments.map inner.apply).map outer.replace := by
        have same := composes.apply nonempty built
        rw [apply_parameterized, apply_parameterized, apply_parameterized] at same
        rw [← apply_of_nonempty nonempty]
        exact (Ty.parameterized.inj same).2.2.symm
      have arity := (built.applied _ (Ty.mem_parts_self _)).2
      intro parameter member
      rw [apply_parameterized, apply_parameterized]
      simp only [Catalog.bindingsAlong, sameArguments]
      exact (replace_forClass (by rw [List.length_map]; exact arity) member).symm

end Bindings

namespace Catalog

variable {catalog : Catalog}

/-- Both searches find the ancestor over the same supertypes, or neither does. -/
theorem findSupertype_map (linked : catalog.HasLinkedSupertypes) {outer : Bindings}
    (nonempty : outer.isEmpty = false) (ancestor : ClassName) {depth : Nat} {named : ClassName}
    {inner joint : Bindings}
    (composes : Bindings.ComposesOn (catalog.typeParameters named) outer inner joint) :
    catalog.findSupertype ancestor depth named joint =
      (catalog.findSupertype ancestor depth named inner).map (Option.map outer.apply) := by
  induction depth generalizing named inner joint with
  | zero => rfl
  | succ depth ih =>
      apply firstFound_map
      intro supertype isSupertype
      have built := linked.isSupertypeOver isSupertype
      rcases linked.exists_erase isSupertype with ⟨raw, isClass, -, erased⟩
      simp only [erased]
      split
      · simp only [Except.map, Option.map_some, composes.apply nonempty built]
      · exact ih (composes.bindingsAlong nonempty built isClass)

/-- The bindings that a search starts with are applied to what it finds without any. -/
theorem findSupertype_eq_map (linked : catalog.HasLinkedSupertypes) (ancestor : ClassName)
    (depth : Nat) (named : ClassName) (bindings : Bindings) :
    catalog.findSupertype ancestor depth named bindings =
      (catalog.findSupertype ancestor depth named .empty).map (Option.map bindings.apply) := by
  cases isEmpty : bindings.isEmpty with
  | false =>
      apply findSupertype_map linked isEmpty
      intro parameter _
      rfl
  | true =>
      have unchanged : Option.map bindings.apply = id := by
        funext found
        cases found <;> simp [Bindings.apply, isEmpty]
      have isEmptyMap : bindings = .empty := by
        rcases bindings with ⟨entries, distinct⟩
        cases List.isEmpty_iff.1 isEmpty
        rfl
      rw [unchanged, isEmptyMap]
      cases catalog.findSupertype ancestor depth named .empty <;> rfl

/--
The ancestor of an applied class is found, and it is the ancestor of the class alone with its type
parameters replaced by the arguments.
-/
theorem resolveSupertypeOf_parameterized (loaded : catalog.IsLoaded)
    (acyclic : catalog.IsAcyclic) {owner : Option Ty} {raw : ClassName} {arguments : List Ty}
    {ty : Ty} (built : catalog.parameterize owner raw arguments = .ok ty) {ancestor : ClassName}
    (different : ancestor ≠ raw) :
    ∃ found, catalog.resolveSupertype raw ancestor = .ok found ∧
      catalog.resolveSupertypeOf ty ancestor =
        .ok (found.map (Bindings.forClass catalog raw arguments).apply) := by
  have linked := loaded.hasLinkedSupertypes
  rcases parameterize_eq_ok_iff.1 built with ⟨-, nonempty, arity, rfl⟩
  have generic : catalog.arity raw ≠ 0 := by
    rw [arity]
    intro none
    exact nonempty (List.length_eq_zero_iff.1 none)
  have bound := Bindings.isEmpty_forClass generic arity
  rcases exists_findSupertype linked acyclic ancestor .empty
      (catalog.height_lt_searchDepth raw) with ⟨found, isFound⟩
  have composes : Bindings.ComposesOn (catalog.typeParameters raw)
      (Bindings.forClass catalog raw arguments) .empty
      (Bindings.forClass catalog raw arguments) := by
    intro parameter _
    rfl
  have mapped : catalog.findSupertype ancestor catalog.searchDepth raw _ = _ :=
    findSupertype_map linked bound ancestor composes
  refine ⟨found, ?_, ?_⟩
  · rw [resolveSupertype, if_neg different.symm, isFound]
  · rw [resolveSupertypeOf, if_neg different.symm, mapped, isFound]
    rfl

theorem resolveSupertypeOf_box :
    boxes.resolveSupertypeOf (.parameterized none (.plain "a.Box") [.ofPrimitive .int])
        (.plain "a.Container") =
      .ok (some (.parameterized none (.plain "a.Container")
        [.nominal ⟨"int", 1, by decide⟩])) := by
  have built : boxes.parameterize none (.plain "a.Box") [.ofPrimitive .int] =
      .ok (.parameterized none (.plain "a.Box") [.ofPrimitive .int]) := by
    decide +kernel
  rcases resolveSupertypeOf_parameterized isLoaded_boxes
      isAcyclic_boxes built (show ClassName.plain "a.Container" ≠ .plain "a.Box" by decide) with
      ⟨found, isFound, applied⟩
  have isContainer : boxes.resolveSupertype (.plain "a.Box") (.plain "a.Container") =
      .ok (some (.parameterized none (.plain "a.Container") [.array (.var
        (.unbounded (.type (.plain "a.Box")) "T"))])) := by
    decide +kernel
  rw [isContainer] at isFound
  cases isFound
  rw [applied]
  decide +kernel

end Catalog

end NominalTypes
