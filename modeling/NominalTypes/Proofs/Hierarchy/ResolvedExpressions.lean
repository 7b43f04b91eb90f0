import NominalTypes.Proofs.Hierarchy.Search

/-!
# The expressions that ancestors are resolved to

The search for an ancestor carries along what the type parameters of each class stand for. All of
them are bound when the search comes to a class, so that none of its parameters is left in what is
found there, whatever name it has: an ancestor of a class has the type parameters of this class as
its only variables, and an ancestor of an applied class has the variables of the arguments. Applied
classes keep the number of their arguments on the way.
-/

namespace NominalTypes

variable {catalog : Catalog} {parameters : List TypeVariable}

namespace Catalog

/-- Only the given variables occur, and applied classes have as many arguments as they take. -/
structure IsAppliedOver (catalog : Catalog) (parameters : List TypeVariable) (ty : Ty) : Prop where
  closed : ∀ parameter ∈ ty.occurrences, parameter ∈ parameters
  applied : ∀ part ∈ ty.parts, catalog.FitsArity part

/-- The type parameters of the class stand for expressions over the given variables. -/
def BindsOver (catalog : Catalog) (parameters : List TypeVariable) (named : ClassName)
    (bindings : Bindings) : Prop :=
  ∀ parameter ∈ catalog.typeParameters named,
    catalog.IsAppliedOver parameters (bindings.replace (.var parameter))

theorem isAppliedOver_nominal (named : ClassName) :
    catalog.IsAppliedOver parameters (.nominal named) where
  closed := List.forall_mem_nil _
  applied := List.forall_mem_singleton.2 trivial

theorem isAppliedOver_unboundedWildcard :
    catalog.IsAppliedOver parameters .unboundedWildcard where
  closed := List.forall_mem_nil _
  applied := by simp [Ty.unboundedWildcard, Ty.wildcardOf, Ty.boundsOrObject, Ty.parts,
    Ty.partsAll, Ty.object, FitsArity]

theorem IsAppliedOver.argument {owner : Option Ty} {raw : ClassName} {arguments : List Ty}
    (applied : catalog.IsAppliedOver parameters (.parameterized owner raw arguments))
    {argument : Ty} (isArgument : argument ∈ arguments) :
    catalog.IsAppliedOver parameters argument where
  closed := (Ty.forall_occurrences_parameterized.1 applied.closed).2 argument isArgument
  applied := (Ty.forall_parts_parameterized.1 applied.applied).2.2 argument isArgument

end Catalog

namespace Bindings

variable {self : Bindings}

/-- Where variables are replaced by types with fitting arguments, the arguments fit afterwards. -/
theorem fitsArity_replace {ty : Ty} (applied : ∀ part ∈ ty.parts, catalog.FitsArity part)
    (bound : ∀ parameter ∈ ty.occurrences, ∀ part ∈ (self.replace (.var parameter)).parts,
      catalog.FitsArity part) :
    ∀ part ∈ (self.replace ty).parts, catalog.FitsArity part := by
  induction ty using Ty.induct with
  | nominal named => exact applied
  | var parameter ih => exact bound parameter (List.mem_singleton.2 rfl)
  | array component ih =>
      intro part isPart
      rcases Ty.mem_parts_arrayOf isPart with isArray | isPart
      · cases part with
        | nominal | array => trivial
        | parameterized | var | wildcard => cases isArray
      · exact ih (List.forall_mem_cons.1 applied).2 bound part isPart
  | parameterized owner raw arguments ownerIh argumentsIh =>
      rcases Ty.forall_occurrences_parameterized.1 bound with ⟨ownerBound, argumentsBound⟩
      rcases Ty.forall_parts_parameterized.1 applied with
        ⟨⟨nonempty, arity⟩, ownerFits, argumentsFit⟩
      rw [replace_parameterized, Ty.forall_parts_parameterized, Option.forall_mem_map,
        List.forall_mem_map]
      refine ⟨⟨by simpa using nonempty, by rwa [List.length_map]⟩, ?_, ?_⟩
      · intro part isOwner
        exact ownerIh part isOwner (ownerFits part isOwner) (ownerBound part isOwner)
      · intro part isArgument
        exact argumentsIh part isArgument (argumentsFit part isArgument)
          (argumentsBound part isArgument)
  | wildcard upper lower upperIh lowerIh =>
      rcases Ty.forall_occurrences_wildcard.1 bound with ⟨upperBound, lowerBound⟩
      rcases Ty.forall_parts_wildcard.1 applied with ⟨-, upperFits, lowerFits⟩
      rw [replace_wildcard, Ty.forall_parts_wildcard, List.forall_mem_map, List.forall_mem_map]
      refine ⟨trivial, ?_, ?_⟩
      · intro part isBound
        exact upperIh part isBound (upperFits part isBound) (upperBound part isBound)
      · intro part isBound
        exact lowerIh part isBound (lowerFits part isBound) (lowerBound part isBound)

end Bindings

namespace Catalog

variable {named ancestor : ClassName} {bindings : Bindings}

/-- A supertype is over the given variables once the type parameters of its class are. -/
theorem BindsOver.isAppliedOver_apply (binds : catalog.BindsOver parameters named bindings)
    {supertype : Ty}
    (built : catalog.IsSupertypeOver (catalog.typeParameters named) supertype) :
    catalog.IsAppliedOver parameters (bindings.apply supertype) := by
  rw [Bindings.apply_eq_replace built.canonical]
  constructor
  · intro parameter occurs
    rw [Bindings.occurrences_replace] at occurs
    rcases List.mem_flatMap.1 occurs with ⟨original, isOriginal, isThere⟩
    apply (binds original (built.closed original isOriginal)).closed
    rwa [Bindings.occurrences_replace_var]
  · apply Bindings.fitsArity_replace built.applied
    intro parameter occurs
    exact (binds parameter (built.closed parameter occurs)).applied

/-- The parameters of an applied class stand for its arguments. -/
theorem IsAppliedOver.bindsOver_forClass {owner : Option Ty} {arguments : List Ty}
    (applied : catalog.IsAppliedOver parameters (.parameterized owner named arguments)) :
    catalog.BindsOver parameters named (Bindings.forClass catalog named arguments) := by
  intro parameter isParameter
  have arity := (applied.applied _ (Ty.mem_parts_self _)).2
  rcases Option.isSome_iff_exists.1 (Bindings.get?_forClass_isSome arity isParameter) with
    ⟨argument, isBound⟩
  rw [Bindings.replace, isBound]
  exact applied.argument (Bindings.mem_arguments_of_get?_forClass isBound)

/-- The parameters of a class that is extended without arguments stand for wildcards. -/
theorem bindsOver_unbounded (catalog : Catalog) (parameters : List TypeVariable)
    (named : ClassName) :
    catalog.BindsOver parameters named (Bindings.ofList
      ((catalog.typeParameters named).map fun parameter => (parameter, .unboundedWildcard))) := by
  intro parameter isParameter
  rw [Bindings.replace, Bindings.get?_ofList_const isParameter]
  exact isAppliedOver_unboundedWildcard

/-- The search goes on with type parameters that stand for expressions over the same variables. -/
theorem IsAppliedOver.bindsOver_bindingsAlong {supertype : Ty}
    (applied : catalog.IsAppliedOver parameters supertype)
    (isClass : supertypeClass? supertype = some named) :
    catalog.BindsOver parameters named (catalog.bindingsAlong supertype named) := by
  cases supertype with
  | array | var | wildcard => cases isClass
  | nominal other => exact catalog.bindsOver_unbounded parameters named
  | parameterized owner raw arguments =>
      cases isClass
      exact applied.bindsOver_forClass

/-- What is found is over the variables that the search starts with, at whatever depth. -/
theorem BindsOver.isAppliedOver_findSupertype (linked : catalog.HasLinkedSupertypes) {depth : Nat}
    (binds : catalog.BindsOver parameters named bindings) {found : Ty}
    (isFound : catalog.findSupertype ancestor depth named bindings = .ok (some found)) :
    catalog.IsAppliedOver parameters found := by
  have supertypes : ∀ named bindings, catalog.BindsOver parameters named bindings →
      ∀ declared ∈ catalog.supertypes named,
        catalog.IsAppliedOver parameters (bindings.apply declared) := by
    intro named bindings binds declared isDeclared
    exact binds.isAppliedOver_apply (linked.isSupertypeOver isDeclared)
  refine linked.holds_of_findSupertype supertypes ?_ binds isFound
  intro named bindings binds declared isDeclared raw isClass
  have applied := supertypes named bindings binds declared isDeclared
  exact applied.bindsOver_bindingsAlong (supertypeClass?_apply bindings isClass)

/-- Without bindings the type parameters of a class stand for themselves. -/
theorem bindsOver_empty (catalog : Catalog) (named : ClassName) :
    catalog.BindsOver (catalog.typeParameters named) named .empty := by
  intro parameter isParameter
  constructor
  · exact List.forall_mem_singleton.2 isParameter
  · exact List.forall_mem_singleton.2 trivial

/--
The ancestor of a class has no variables but the type parameters of the class, and the ancestor of
an applied class that some text denotes has no variables but those of the type. In both of them
each class is applied to as many arguments as it has type parameters.
-/
theorem isAppliedOver_resolved {scope : Scope} (loaded : scope.catalog.IsLoaded)
    (ancestor : ClassName) :
    (∀ named found, scope.catalog.resolveSupertype named ancestor = .ok (some found) →
      scope.catalog.IsAppliedOver (scope.catalog.typeParameters named) found) ∧
    ∀ depth text owner raw arguments found,
      scope.parse depth text = .ok (.parameterized owner raw arguments) →
      scope.catalog.resolveSupertypeOf (.parameterized owner raw arguments) ancestor =
        .ok (some found) →
      scope.catalog.IsAppliedOver (Ty.parameterized owner raw arguments).occurrences found := by
  have linked := loaded.hasLinkedSupertypes
  constructor
  · intro named found resolved
    rw [resolveSupertype] at resolved
    split at resolved
    · cases resolved
      exact isAppliedOver_nominal named
    · exact (scope.catalog.bindsOver_empty named).isAppliedOver_findSupertype linked resolved
  · intro depth text owner raw arguments found read resolved
    have itself : scope.catalog.IsAppliedOver (Ty.parameterized owner raw arguments).occurrences
        (.parameterized owner raw arguments) :=
      ⟨fun _ => id, (Scope.isDenotable_of_parse read).fitsArity⟩
    rw [resolveSupertypeOf] at resolved
    split at resolved
    · cases resolved
      exact itself
    · exact itself.bindsOver_forClass.isAppliedOver_findSupertype linked resolved

/-- Interfaces and a class whose type parameters have the same names in turn. -/
def twinDocument : Document where
  classes := [
    { name := "a.Pair", kind := .interface,
      typeParameters := [{ name := "A" }, { name := "B" }] },
    { name := "a.Swap", kind := .interface,
      typeParameters := [{ name := "A" }, { name := "B" }], interfaces := ["Pair<B, A[]>"] },
    { name := "a.Twin", typeParameters := [{ name := "A" }],
      interfaces := ["Swap<A, ? super A>"] }]

/-- The catalog of these classes. -/
def twins : Catalog := (Catalog.empty.extend twinDocument).toOption.getD .empty

/-- What a twin of a type has in common with all pairs. -/
def pairOfTwin (ty : Ty) : Ty := .parameterized none (.plain "a.Pair") [.superOf ty, .arrayOf ty]

/-- The type parameter of the class `a.Twin`. -/
def twinParameter : TypeVariable := .unbounded (.type (.plain "a.Twin")) "A"

/-- A type parameter of a method that has the same name. -/
def turnParameter : TypeVariable := .unbounded (.method (.plain "a.Swap") "turn") "A"

/-- The scope of the method. -/
def turnScope : Scope where
  catalog := twins
  parameters := [turnParameter]

theorem isAppliedOver_resolved_twin :
    turnScope.catalog.IsLoaded ∧
      twins.resolveSupertype (.plain "a.Twin") (.plain "a.Pair") =
        .ok (some (pairOfTwin (.var twinParameter))) ∧
      twins.IsAppliedOver [twinParameter] (pairOfTwin (.var twinParameter)) ∧
      turnScope.parse 4 "a.Twin<A>" = .ok (sampleOf "a.Twin" (.var turnParameter)) ∧
      twins.resolveSupertypeOf (sampleOf "a.Twin" (.var turnParameter)) (.plain "a.Pair") =
        .ok (some (pairOfTwin (.var turnParameter))) ∧
      twins.IsAppliedOver [turnParameter] (pairOfTwin (.var turnParameter)) := by
  have loaded : turnScope.catalog.IsLoaded := isLoaded_getD twinDocument
  have resolved : twins.resolveSupertype (.plain "a.Twin") (.plain "a.Pair") =
      .ok (some (pairOfTwin (.var twinParameter))) := by
    decide +kernel
  have read : turnScope.parse 4 "a.Twin<A>" = .ok (sampleOf "a.Twin" (.var turnParameter)) := by
    decide +kernel
  have resolvedOf :
      twins.resolveSupertypeOf (sampleOf "a.Twin" (.var turnParameter)) (.plain "a.Pair") =
        .ok (some (pairOfTwin (.var turnParameter))) := by
    decide +kernel
  have parameters : twins.typeParameters (.plain "a.Twin") = [twinParameter] := by
    decide +kernel
  rcases isAppliedOver_resolved loaded (.plain "a.Pair") with ⟨ofClass, ofApplied⟩
  refine ⟨loaded, resolved, ?_, read, resolvedOf, ofApplied 4 _ _ _ _ _ read resolvedOf⟩
  rw [← parameters]
  exact ofClass _ _ resolved

end Catalog

end NominalTypes
