import NominalTypes.Catalog.Owners
import NominalTypes.Proofs.Grammar.RoundTrip

/-!
# What may stand where in a type that was read

Each place in a type that was read is checked by another rule of the reading: a name when it is
resolved, the arguments when a class is applied to them, a bound before it is read, an array when it
is built. All of the rules together are stated here for one type expression. They hold of everything
that stands in a type that was read, since the components of a denotable type are denotable.
-/

namespace NominalTypes

namespace Ty

/--
The expressions that an expression is directly built from. Upper bounds that a wildcard has
implicitly are not written in it, and they are left out.
-/
def components : Ty → List Ty
  | .nominal _ => []
  | .array component => [component]
  | .parameterized owner _ arguments => owner.toList ++ arguments
  | .var _ => []
  | .wildcard upper lower => (if isDefaultBounds upper then [] else upper) ++ lower

/-- The expression is the other one or stands anywhere in it. -/
inductive StandsIn (part : Ty) : Ty → Prop where
  | whole : StandsIn part part
  | inner {component whole : Ty} (isComponent : component ∈ whole.components)
      (within : StandsIn part component) : StandsIn part whole

/-- The number of array dimensions on the element of the expression. -/
def layers : Ty → Nat
  | .nominal named => named.dims
  | .array component => component.layers + 1
  | _ => 0
termination_by structural ty => ty

end Ty

/-- What may stand in a type expression in a scope, apart from what may stand in that in turn. -/
def Scope.Admits (scope : Scope) : Ty → Prop
  | .nominal named => scope.catalog.contains named = true
  | .array component =>
      component.isWildcard = false ∧ (Ty.array component).HasCanonicalForm ∧
        (Ty.array component).layers ≤ 255
  | .parameterized owner raw arguments =>
      (scope.catalog.contains raw = true ∧ raw.isArray = false) ∧
        (arguments ≠ [] ∧ scope.catalog.arity raw = arguments.length) ∧
        owner = scope.catalog.owner? raw
  | .var parameter => parameter ∈ scope.parameters
  | .wildcard upper lower => ∀ bound ∈ upper ++ lower, bound.isWildcard = false

namespace Ty

theorem layers_arrayOf (component : Ty) : (arrayOf component).layers = component.layers + 1 := by
  cases component with
  | array | parameterized | var | wildcard => rfl
  | nominal named =>
      by_cases room : named.dims < 255
      · simp [arrayOf, ClassName.arrayOf?, room, layers]
      · simp [arrayOf, ClassName.arrayOf?, room, layers]

theorem layers_arrayOfTimes (dims : Nat) (component : Ty) :
    (arrayOfTimes dims component).layers = component.layers + dims := by
  induction dims generalizing component with
  | zero => rfl
  | succ dims ih =>
      rw [arrayOfTimes, ih, layers_arrayOf]
      omega

theorem layers_of_bare {ty : Ty} (bare : ty.isArray = false) : ty.layers = 0 := by
  cases ty with
  | nominal named => simpa [layers, isArray, ClassName.isArray] using bare
  | array component => cases bare
  | parameterized | var | wildcard => rfl

theorem arrayOfTimes_succ (dims : Nat) (component : Ty) :
    arrayOfTimes (dims + 1) component = arrayOf (arrayOfTimes dims component) := by
  induction dims generalizing component with
  | zero => rfl
  | succ dims ih => exact ih (arrayOf component)

theorem components_arrayOf_subset (component : Ty) :
    (arrayOf component).components ⊆ [component] := by
  cases component with
  | array | parameterized | var | wildcard => exact List.Subset.refl _
  | nominal named =>
      rcases arrayOf_nominal named with ⟨arrayClass, isClass⟩ | isArray
      · rw [isClass]
        exact List.nil_subset _
      · rw [isArray]
        exact List.Subset.refl _

/-- A wildcard is built from the bounds that are written. -/
theorem components_wildcardOf_subset (upper lower : List Ty) :
    (wildcardOf upper lower).components ⊆ upper ++ lower := by
  cases upper with
  | nil => exact List.Subset.refl _
  | cons first rest =>
      simp only [wildcardOf, boundsOrObject, components]
      split
      · exact List.subset_append_right _ _
      · exact List.Subset.refl _

end Ty

namespace Scope

variable {scope : Scope} {ty : Ty}

/--
An array may stand where its component may, if that is no wildcard and has a dimension to spare.
-/
theorem admits_arrayOf {component : Ty} (known : scope.catalog.KnowsClasses component)
    (concrete : component.isWildcard = false) (room : component.layers < 255) :
    scope.Admits (.arrayOf component) := by
  have isKnown := known.arrayOf
  have form := Ty.arrayOf_hasCanonicalForm component
  have fits : (Ty.arrayOf component).layers ≤ 255 := by
    rw [Ty.layers_arrayOf]
    exact room
  cases component with
  | array | parameterized | var | wildcard => exact ⟨concrete, form, fits⟩
  | nominal named =>
      rcases Ty.arrayOf_nominal named with ⟨arrayClass, isClass⟩ | isArray
      · rw [isClass] at isKnown ⊢
        exact isKnown.whole arrayClass rfl
      · rw [isArray] at form fits ⊢
        exact ⟨concrete, form, fits⟩

namespace IsDenotable

/--
What a denotable type is directly built from is denotable again. The component of an array is the
array type over the same element with one dimension less.
-/
theorem of_mem_components (denotable : scope.IsDenotable ty) :
    ∀ component ∈ ty.components, scope.IsDenotable component := by
  induction denotable with
  | nominal | var => exact List.forall_mem_nil _
  | @parameterized raw arguments _ _ _ _ argumentsDenotable _ =>
      intro component isComponent
      rcases List.mem_append.1 isComponent with isOwner | isArgument
      · rcases Option.map_eq_some_iff.1 (Option.mem_toList.1 isOwner) with
          ⟨outer, isEnclosing, rfl⟩
        rcases Option.filter_eq_some_iff.1 isEnclosing with ⟨isOuter, contained⟩
        exact .nominal contained (ClassName.enclosing?_dims isOuter)
      · exact argumentsDenotable component isArgument
  | @array element dims fits bare concrete elementDenotable ih =>
      cases dims with
      | zero => exact ih
      | succ dims =>
          intro component isComponent
          rw [Ty.arrayOfTimes_succ] at isComponent
          cases List.mem_singleton.1 (Ty.components_arrayOf_subset _ isComponent)
          exact .array (Nat.le_of_succ_le fits) bare concrete elementDenotable
  | wildcard _ upperDenotable lowerDenotable _ _ =>
      intro component isComponent
      rcases List.mem_append.1 (Ty.components_wildcardOf_subset _ _ isComponent) with
          isUpper | isLower
      · exact upperDenotable component isUpper
      · exact lowerDenotable component isLower

/-- Each denotable type may stand where it is. -/
theorem admits (denotable : scope.IsDenotable ty) : scope.Admits ty := by
  induction denotable with
  | nominal contained _ => exact contained
  | var inScope => exact inScope
  | @parameterized raw arguments contained plain arity nonempty _ _ =>
      exact ⟨⟨contained, by simp [ClassName.isArray, plain]⟩, ⟨nonempty, arity⟩, rfl⟩
  | @array element dims fits bare concrete elementDenotable ih =>
      cases dims with
      | zero => exact ih
      | succ dims =>
          rw [Ty.arrayOfTimes_succ]
          apply admits_arrayOf (elementDenotable.knowsClasses.arrayOfTimes dims)
            (Ty.isWildcard_arrayOfTimes concrete dims)
          rw [Ty.layers_arrayOfTimes, Ty.layers_of_bare bare]
          omega
  | @wildcard upper lower flat _ _ _ _ =>
      cases upper with
      | nil => exact List.forall_mem_cons.2 ⟨rfl, flat⟩
      | cons first rest => exact flat

/-- All that stands in a denotable type is denotable. -/
theorem of_standsIn (denotable : scope.IsDenotable ty) {part : Ty} (stands : part.StandsIn ty) :
    scope.IsDenotable part := by
  induction stands with
  | whole => exact denotable
  | inner isComponent _ ih => exact ih (denotable.of_mem_components _ isComponent)

end IsDenotable

/--
All that stands in a type that was read may stand there. The classes are known, the implicit bound
of a wildcard apart, and the variables are in scope. A class is applied to as many arguments as it
has type parameters, at least one, and is owned by its enclosing class if that is known. Wildcards
are nothing but arguments or the whole type, and array types are canonical and have at most 255
dimensions.
-/
theorem admits_of_parse {depth : Nat} {text : String} (read : scope.parse depth text = .ok ty) :
    ∀ part, part.StandsIn ty → scope.Admits part := by
  intro part stands
  have denotable := (isDenotable_of_parse read).of_standsIn stands
  exact denotable.admits

/-- An array type over the member class with a wildcard, whose implicit bound is not known. -/
def nodeArrays : Ty :=
  .array (.array (nodeOf (.superOf (.array (nodeOf (.array (.var graphVariable)))))))

theorem admits_of_parse_nodeArrays :
    ofGraph.parse 4 "Node<? super a.Graph.Node<T[]>[]>[][]" = .ok nodeArrays ∧
      ∀ part, part.StandsIn nodeArrays → ofGraph.Admits part := by
  have read : ofGraph.parse 4 "Node<? super a.Graph.Node<T[]>[]>[][]" = .ok nodeArrays := by
    decide +kernel
  exact ⟨read, admits_of_parse read⟩

end Scope

end NominalTypes
