import NominalTypes.Proofs.Hierarchy.Search

/-!
# Array types stay canonical

Types are compared by their structure, so that an array type must not be written in two ways. The
canonical way has no generic array over a class that has room for one more dimension. What text
denotes is canonical, and so is what is built from canonical types: their arrays and components,
what a replacement of variables makes of them, and the ancestors that they are resolved to. Among
canonical types, component and array type determine each other.
-/

namespace NominalTypes

namespace Ty

theorem isCanonical_of_component? {ty component : Ty} (canonical : ty.IsCanonical)
    (isComponent : ty.component? = some component) : component.IsCanonical := by
  cases ty with
  | parameterized | var | wildcard => cases isComponent
  | nominal named =>
      rcases Option.map_eq_some_iff.1 isComponent with ⟨componentClass, -, rfl⟩
      exact isCanonical_nominal componentClass
  | array element =>
      cases isComponent
      exact (isCanonical_array.1 canonical).2

/-- A canonical array type is built over its component again. -/
theorem arrayOf_of_component? {ty component : Ty} (canonical : ty.IsCanonical)
    (isComponent : ty.component? = some component) : arrayOf component = ty := by
  cases ty with
  | parameterized | var | wildcard => cases isComponent
  | nominal named =>
      rcases Option.map_eq_some_iff.1 isComponent with ⟨componentClass, isClass, rfl⟩
      simp [arrayOf, ClassName.arrayOf?_of_component? isClass]
  | array element =>
      cases isComponent
      exact arrayOf_eq_array (isCanonical_array.1 canonical).1

end Ty

namespace Bindings

variable {self : Bindings}

/-- Variables are bound to canonical types only. -/
def AreCanonical (self : Bindings) : Prop :=
  ∀ parameter ty, self.get? parameter = some ty → ty.IsCanonical

theorem areCanonical_empty : empty.AreCanonical := by
  intro parameter ty bound
  cases bound

/-- Every array type is built anew, so that a replacement leaves none in another form. -/
theorem isCanonical_replace (canonical : self.AreCanonical) (ty : Ty) :
    (self.replace ty).IsCanonical := by
  induction ty using Ty.induct with
  | nominal named => exact Ty.isCanonical_nominal named
  | array component ih => exact Ty.arrayOf_isCanonical ih
  | parameterized owner raw arguments ownerIh argumentsIh =>
      rw [replace_parameterized, Ty.isCanonical_parameterized, Option.forall_mem_map,
        List.forall_mem_map]
      exact ⟨ownerIh, argumentsIh⟩
  | var parameter ih =>
      cases bound : self.get? parameter with
      | none => simp [replace, bound]
      | some ty => simpa [replace, bound] using canonical parameter ty bound
  | wildcard upper lower upperIh lowerIh =>
      rw [replace_wildcard, Ty.isCanonical_wildcard, List.forall_mem_map, List.forall_mem_map]
      exact ⟨upperIh, lowerIh⟩

/-- Bindings of canonical types keep a type canonical. -/
theorem isCanonical_apply (canonical : self.AreCanonical) {ty : Ty}
    (isCanonical : ty.IsCanonical) : (self.apply ty).IsCanonical := by
  rw [apply_eq_replace isCanonical]
  exact isCanonical_replace canonical ty

end Bindings

namespace Catalog

variable {catalog : Catalog} {named ancestor raw : ClassName} {bindings : Bindings}

theorem areCanonical_forClass {arguments : List Ty}
    (canonical : ∀ argument ∈ arguments, argument.IsCanonical) :
    (Bindings.forClass catalog raw arguments).AreCanonical :=
  fun _ ty bound => canonical ty (Bindings.mem_arguments_of_get?_forClass bound)

theorem areCanonical_bindingsAlong {supertype : Ty} (canonical : supertype.IsCanonical) :
    (catalog.bindingsAlong supertype raw).AreCanonical := by
  intro parameter ty bound
  rcases eq_or_mem_of_get?_bindingsAlong bound with
    rfl | ⟨owner, other, arguments, rfl, isArgument⟩
  · apply Ty.isCanonical_wildcard.2
    simp [Ty.boundsOrObject, Ty.object]
  · exact (Ty.isCanonical_parameterized.1 canonical).2 ty isArgument

/-- A supertype that is found is canonical. -/
theorem HasLinkedSupertypes.isCanonical_findSupertype (linked : catalog.HasLinkedSupertypes)
    (canonical : bindings.AreCanonical) {depth : Nat} {found : Ty}
    (isFound : catalog.findSupertype ancestor depth named bindings = .ok (some found)) :
    found.IsCanonical := by
  have supertypes : ∀ (named : ClassName) (bindings : Bindings), bindings.AreCanonical →
      ∀ declared ∈ catalog.supertypes named, (bindings.apply declared).IsCanonical := by
    intro named bindings canonical declared isDeclared
    exact Bindings.isCanonical_apply canonical (linked.isSupertypeOver isDeclared).canonical
  refine linked.holds_of_findSupertype supertypes ?_ canonical isFound
  intro named bindings canonical declared isDeclared raw _
  exact areCanonical_bindingsAlong (supertypes named bindings canonical declared isDeclared)

/-- An ancestor that a canonical type is resolved to is canonical. -/
theorem HasLinkedSupertypes.isCanonical_resolveSupertypeOf (linked : catalog.HasLinkedSupertypes)
    {ty found : Ty} (canonical : ty.IsCanonical)
    (isFound : catalog.resolveSupertypeOf ty ancestor = .ok (some found)) : found.IsCanonical := by
  cases ty with
  | array | var | wildcard => cases isFound
  | nominal named =>
      rw [resolveSupertypeOf, resolveSupertype] at isFound
      split at isFound
      · cases isFound
        exact canonical
      · exact linked.isCanonical_findSupertype Bindings.areCanonical_empty isFound
  | parameterized owner raw arguments =>
      rw [resolveSupertypeOf] at isFound
      split at isFound
      · cases isFound
        exact canonical
      · have areArguments := (Ty.isCanonical_parameterized.1 canonical).2
        exact linked.isCanonical_findSupertype (areCanonical_forClass areArguments) isFound

/-- On acyclic catalogs every search for an ancestor ends. -/
theorem exists_resolveSupertypeOf (linked : catalog.HasLinkedSupertypes)
    (acyclic : catalog.IsAcyclic) {ty : Ty}
    (isOfClass : ty.asClass?.isSome = true ∨ ty.isParameterized = true) (ancestor : ClassName) :
    ∃ found, catalog.resolveSupertypeOf ty ancestor = .ok found := by
  have search : ∀ named bindings,
      ∃ found, catalog.findSupertype ancestor catalog.searchDepth named bindings = .ok found := by
    intro named bindings
    exact exists_findSupertype linked acyclic ancestor bindings
      (catalog.height_lt_searchDepth named)
  cases ty with
  | array | var | wildcard => simp [Ty.asClass?, Ty.isParameterized] at isOfClass
  | nominal named =>
      rw [resolveSupertypeOf, resolveSupertype]
      split
      · exact ⟨_, rfl⟩
      · exact search named _
  | parameterized owner raw arguments =>
      rw [resolveSupertypeOf]
      split
      · exact ⟨_, rfl⟩
      · exact search raw _

/--
What text denotes is canonical, and array types, components, replacements of variables and resolved
ancestors of canonical types are. The component of an array type is what it was built over, and a
canonical array type is built over its component again.
-/
theorem isCanonical_results {scope : Scope} (loaded : scope.catalog.IsLoaded)
    (acyclic : scope.catalog.IsAcyclic) :
    (∀ depth text ty, scope.parse depth text = .ok ty → ty.IsCanonical) ∧
      (∀ ty : Ty, ty.IsCanonical →
        (Ty.arrayOf ty).IsCanonical ∧
        (∀ component, ty.component? = some component →
          component.IsCanonical ∧ Ty.arrayOf component = ty) ∧
        (∀ bindings : Bindings, bindings.AreCanonical → (bindings.apply ty).IsCanonical) ∧
        (∀ ancestor found, scope.catalog.resolveSupertypeOf ty ancestor = .ok (some found) →
          found.IsCanonical) ∧
        (ty.asClass?.isSome = true ∨ ty.isParameterized = true → ∀ ancestor,
          ∃ found, scope.catalog.resolveSupertypeOf ty ancestor = .ok found)) ∧
      ∀ ty : Ty, (Ty.arrayOf ty).component? = some ty := by
  have linked := loaded.hasLinkedSupertypes
  refine ⟨?_, ?_, Ty.component?_arrayOf⟩
  · intro depth text ty read
    exact (Scope.isDenotable_of_parse read).isCanonical
  · intro ty canonical
    refine ⟨Ty.arrayOf_isCanonical canonical, ?_, ?_, ?_, ?_⟩
    · intro component isComponent
      exact ⟨Ty.isCanonical_of_component? canonical isComponent,
        Ty.arrayOf_of_component? canonical isComponent⟩
    · intro bindings areCanonical
      exact Bindings.isCanonical_apply areCanonical canonical
    · intro ancestor found isFound
      exact linked.isCanonical_resolveSupertypeOf canonical isFound
    · exact exists_resolveSupertypeOf linked acyclic

/-- The array class of integers with all the dimensions that a class can have. -/
def deepestArray : Ty := .nominal ⟨"int", 255, Nat.le_refl 255⟩

/-- The type parameter of a class, replaced by the array class. -/
def boxParameter : TypeVariable := .unbounded (.type (.plain "a.Box")) "T"

/-- The arrays over a class without room for one more dimension are generic, and they stay so. -/
theorem isCanonical_results_box :
    boxes.IsLoaded ∧ boxes.IsAcyclic ∧
      (Bindings.ofList [(boxParameter, deepestArray)]).AreCanonical ∧
      (Bindings.ofList [(boxParameter, deepestArray)]).apply (.array (.var boxParameter)) =
        .array deepestArray ∧
      (Ty.array deepestArray).IsCanonical ∧ (Ty.array deepestArray).component? = some deepestArray ∧
      Ty.arrayOf deepestArray = .array deepestArray ∧
      ∃ found, boxes.resolveSupertypeOf (sampleOf "a.Box" (.array deepestArray))
        (.plain "a.Container") = .ok found ∧ ∀ ty ∈ found, ty.IsCanonical := by
  rcases @isCanonical_results { catalog := boxes } isLoaded_boxes isAcyclic_boxes with
    ⟨-, ofTypes, -⟩
  have bindings : (Bindings.ofList [(boxParameter, deepestArray)]).AreCanonical := by
    intro parameter ty bound
    cases List.mem_singleton.1 (Bindings.mem_of_get?_ofList bound)
    exact Ty.isCanonical_nominal _
  have replaced : (Bindings.ofList [(boxParameter, deepestArray)]).apply
      (.array (.var boxParameter)) = .array deepestArray := by
    decide
  have ofVariable : (Ty.array (.var boxParameter)).IsCanonical :=
    Ty.arrayOf_isCanonical (Ty.isCanonical_var boxParameter)
  rcases ofTypes _ ofVariable with ⟨-, -, ofReplacements, -, -⟩
  have ofArray : (Ty.array deepestArray).IsCanonical := replaced ▸ ofReplacements _ bindings
  have ofSample : (sampleOf "a.Box" (.array deepestArray)).IsCanonical := by
    apply Ty.isCanonical_parameterized.2
    simp [ofArray]
  rcases ofTypes _ ofArray with ⟨-, ofComponent, -, -, -⟩
  rcases ofTypes _ ofSample with ⟨-, -, -, ofAncestors, answers⟩
  rcases answers (.inr rfl) (.plain "a.Container") with ⟨found, isFound⟩
  refine ⟨isLoaded_boxes, isAcyclic_boxes, bindings, replaced, ofArray, rfl,
    (ofComponent deepestArray rfl).2, found, isFound, ?_⟩
  rintro ty rfl
  exact ofAncestors _ ty isFound

end Catalog

end NominalTypes
