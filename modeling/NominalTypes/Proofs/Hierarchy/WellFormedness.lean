import NominalTypes.Proofs.Hierarchy.Instantiation
import NominalTypes.Proofs.Hierarchy.Resolution
import NominalTypes.Proofs.Ty.WellFormed

/-!
# When resolved supertypes are well formed

The search for an ancestor replaces type parameters by what they are bound to, wildcards included:
those among the arguments of a type or of a declared supertype, and those that stand for the
arguments which a generic class is extended without. A parameter that stands alone as the component
of an array or as a bound of a wildcard is then replaced by a wildcard in a place that the grammar
has none for. What is resolved is well formed just if this happens in none of the classes that the
search passes on its way to the ancestor.
-/

namespace NominalTypes

namespace Catalog

/-- All declared supertypes are well formed. -/
def HasWellFormedSupertypes (self : Catalog) : Prop :=
  ∀ info ∈ self.classes, ∀ supertype ∈ info.superclass.toList ++ info.interfaces,
    supertype.IsWellFormed

section

variable {self : Catalog}

theorem Links.isWellFormed {declaration : ClassDeclaration} {info : ClassInfo}
    (links : self.Links declaration info) :
    ∀ supertype ∈ info.superclass.toList ++ info.interfaces, supertype.IsWellFormed := by
  intro supertype member
  rcases links.exists_readSupertype supertype member with rfl | ⟨kind, text, read⟩
  · exact Ty.isWellFormed_nominal _
  · exact (Scope.isDenotable_of_parse (readSupertype_eq_ok_iff.1 read).1).isWellFormed

/-- The supertypes in a loaded catalog are well formed. -/
theorem IsLoaded.hasWellFormedSupertypes (loaded : self.IsLoaded) :
    self.HasWellFormedSupertypes :=
  loaded.forall_classes (fun _ _ _ => Links.isWellFormed) fun _ _ _ _ => id

theorem HasWellFormedSupertypes.isWellFormed (wellFormed : self.HasWellFormedSupertypes)
    {named : ClassName} {supertype : Ty} (isSupertype : supertype ∈ self.supertypes named) :
    supertype.IsWellFormed := by
  rcases mem_supertypes_cases isSupertype with ⟨name, -, rfl⟩ | ⟨info, found, isDeclared⟩
  · exact Ty.isWellFormed_nominal _
  · exact wellFormed info (mem_classes_of_get? found) supertype isDeclared

end

variable {catalog : Catalog}

theorem areWellFormed_forClass {raw : ClassName} {arguments : List Ty}
    (wellFormed : ∀ argument ∈ arguments, argument.IsWellFormed) :
    (Bindings.forClass catalog raw arguments).AreWellFormed :=
  fun _ ty bound => wellFormed ty (Bindings.mem_arguments_of_get?_forClass bound)

theorem areWellFormed_bindingsAlong {supertype : Ty} (wellFormed : supertype.IsWellFormed)
    (raw : ClassName) : (catalog.bindingsAlong supertype raw).AreWellFormed := by
  intro parameter ty bound
  rcases eq_or_mem_of_get?_bindingsAlong bound with
    rfl | ⟨owner, other, arguments, rfl, isArgument⟩
  · exact Ty.isWellFormed_unboundedWildcard
  · exact (Ty.isWellFormed_parameterized.1 wellFormed).2 ty isArgument

/--
The search for the ancestor from a class with bindings comes to a class with bindings. These are the
arguments as declared: what they are replaced by in turn is bound in the class before.
-/
inductive Passes (catalog : Catalog) (ancestor : ClassName) :
    ClassName → Bindings → ClassName → Bindings → Prop where
  | here (named : ClassName) (bindings : Bindings) :
      Passes catalog ancestor named bindings named bindings
  | onward {named raw passed : ClassName} {bindings passedBindings : Bindings} {declared : Ty}
      (towards : catalog.supertypeTowards ancestor named = some declared)
      (isClass : supertypeClass? declared = some raw)
      (rest : Passes catalog ancestor raw (catalog.bindingsAlong declared raw) passed
        passedBindings) :
      Passes catalog ancestor named bindings passed passedBindings

/-- The bindings put a wildcard where none may stand in the form of the ancestor for the class. -/
def MisplacesIn (catalog : Catalog) (ancestor named : ClassName) (bindings : Bindings) : Prop :=
  ∃ inherited, catalog.resolveSupertype named ancestor = .ok (some inherited) ∧
    bindings.Misplaces inherited

/-- The search for the ancestor of a type comes to the class with the bindings. -/
def PassesFrom (catalog : Catalog) (ancestor : ClassName) : Ty → ClassName → Bindings → Prop
  | .nominal named => catalog.Passes ancestor named .empty
  | .parameterized _ raw arguments =>
      catalog.Passes ancestor raw (Bindings.forClass catalog raw arguments)
  | _ => fun _ _ => False

section

variable {named ancestor : ClassName} {inherited : Ty}

/-- On an acyclic catalog no supertype leads back to its class. -/
theorem IsAcyclic.supertypeTowards_self (acyclic : catalog.IsAcyclic)
    (linked : catalog.HasLinkedSupertypes) (named : ClassName) :
    catalog.supertypeTowards named named = none := by
  rw [← Option.not_isSome_iff_eq_none, linked.supertypeTowards_isSome_iff]
  rintro ⟨supertype, edge, path⟩
  exact acyclic named supertype edge path

/-- What is found with bindings is what the class inherits, with the bindings applied to it. -/
theorem exists_inherited_of_findSupertype (linked : catalog.HasLinkedSupertypes)
    (different : named ≠ ancestor) {depth : Nat} (within : depth ≤ catalog.searchDepth)
    {bindings : Bindings} {found : Ty}
    (isFound : catalog.findSupertype ancestor depth named bindings = .ok (some found)) :
    ∃ inherited, catalog.resolveSupertype named ancestor = .ok (some inherited) ∧
      found = bindings.apply inherited := by
  have deeper := findSupertype_of_le within isFound
  rw [findSupertype_eq_map linked] at deeper
  rw [resolveSupertype, if_neg different]
  rcases map_eq_ok.1 deeper with ⟨answer, isAnswer, applied⟩
  rcases Option.map_eq_some_iff.1 applied with ⟨inherited, rfl, isApplied⟩
  exact ⟨inherited, isAnswer, isApplied.symm⟩

/-- What a class inherits is the supertype towards the ancestor, or what the supertype inherits. -/
theorem resolveSupertype_over (linked : catalog.HasLinkedSupertypes) (acyclic : catalog.IsAcyclic)
    (different : named ≠ ancestor)
    (resolved : catalog.resolveSupertype named ancestor = .ok (some inherited)) :
    ∃ declared raw, catalog.supertypeTowards ancestor named = some declared ∧
      supertypeClass? declared = some raw ∧
      (raw = ancestor ∧ inherited = declared ∨
        ∃ further, catalog.resolveSupertype raw ancestor = .ok (some further) ∧
          inherited = (catalog.bindingsAlong declared raw).apply further) := by
  have within : catalog.height named ≤ catalog.supertypeCount + 1 :=
    Nat.le_of_lt_succ (catalog.height_lt_searchDepth named)
  rw [resolveSupertype, if_neg different, searchDepth, findSupertype_eq_searchAt linked acyclic
    (answersWithin linked acyclic ancestor _) within] at resolved
  cases towards : catalog.supertypeTowards ancestor named with
  | none =>
      rw [towards] at resolved
      cases resolved
  | some declared =>
      rcases linked.exists_erase (List.mem_of_find?_eq_some towards) with ⟨raw, isClass, -⟩
      refine ⟨declared, raw, rfl, isClass, ?_⟩
      have unbound : Bindings.empty.apply declared = declared := rfl
      simp only [towards, searchAt_of_supertypeClass? isClass, unbound] at resolved
      split at resolved
      · next isAncestor =>
        cases resolved
        exact Or.inl ⟨isAncestor, rfl⟩
      · next further =>
        exact Or.inr (exists_inherited_of_findSupertype linked further (Nat.le_succ _) resolved)

/-- What is misplaced in a class is misplaced in what the class inherits from the ancestor. -/
theorem misplacesIn_iff (resolved : catalog.resolveSupertype named ancestor = .ok (some inherited))
    (bindings : Bindings) :
    catalog.MisplacesIn ancestor named bindings ↔ bindings.Misplaces inherited := by
  constructor
  · rintro ⟨other, isOther, misplaced⟩
    rw [resolved] at isOther
    cases isOther
    exact misplaced
  · intro misplaced
    exact ⟨inherited, resolved, misplaced⟩

section

variable {property : ClassName → Bindings → Prop} {bindings : Bindings}

/-- A search that goes on no further passes the class that it is at. -/
theorem forall_passes_of_none (towards : catalog.supertypeTowards ancestor named = none) :
    (∀ passed passedBindings, catalog.Passes ancestor named bindings passed passedBindings →
        property passed passedBindings) ↔ property named bindings := by
  constructor
  · intro each
    exact each named bindings (.here named bindings)
  · intro isHere passed passedBindings way
    cases way with
    | here => exact isHere
    | onward other =>
        rw [towards] at other
        cases other

/--
A search passes the class that it is at, and the classes from the supertype towards the ancestor on.
-/
theorem forall_passes_of_some {declared : Ty} {raw : ClassName}
    (towards : catalog.supertypeTowards ancestor named = some declared)
    (isClass : supertypeClass? declared = some raw) :
    (∀ passed passedBindings, catalog.Passes ancestor named bindings passed passedBindings →
        property passed passedBindings) ↔
      property named bindings ∧
        ∀ passed passedBindings,
          catalog.Passes ancestor raw (catalog.bindingsAlong declared raw) passed passedBindings →
            property passed passedBindings := by
  constructor
  · intro each
    refine ⟨each named bindings (.here named bindings), ?_⟩
    intro passed passedBindings rest
    exact each passed passedBindings (.onward towards isClass rest)
  · rintro ⟨isHere, others⟩ passed passedBindings way
    cases way with
    | here => exact isHere
    | onward other isOther rest =>
        rw [towards] at other
        cases other
        rw [isClass] at isOther
        cases isOther
        exact others passed passedBindings rest

end

/--
What is inherited is well formed under bindings just if no class on the way misplaces any. The
induction follows the supertypes, each of which has fewer proper ancestors than the class before it.
-/
theorem isWellFormed_apply_inherited (loaded : catalog.IsLoaded) (acyclic : catalog.IsAcyclic)
    {bindings : Bindings} (wellFormed : bindings.AreWellFormed)
    (resolved : catalog.resolveSupertype named ancestor = .ok (some inherited)) :
    (bindings.apply inherited).IsWellFormed ↔
      ∀ passed passedBindings, catalog.Passes ancestor named bindings passed passedBindings →
        ¬catalog.MisplacesIn ancestor passed passedBindings := by
  have linked := loaded.hasLinkedSupertypes
  induction steps : catalog.height named using Nat.strongRecOn generalizing
    named bindings inherited with
  | ind steps ih =>
      subst steps
      rw [Bindings.isWellFormed_apply wellFormed, ← misplacesIn_iff resolved]
      by_cases same : named = ancestor
      · subst same
        rw [resolveSupertype, if_pos rfl] at resolved
        cases resolved
        rw [forall_passes_of_none (acyclic.supertypeTowards_self linked named)]
        exact and_iff_right (Ty.isWellFormed_nominal named)
      · rcases resolveSupertype_over linked acyclic same resolved with
          ⟨declared, raw, towards, isClass, inheritance⟩
        have isDeclared : declared ∈ catalog.supertypes named := List.mem_of_find?_eq_some towards
        have declaredWell := loaded.hasWellFormedSupertypes.isWellFormed isDeclared
        have fewer : catalog.height raw < catalog.height named := by
          rcases linked.exists_erase isDeclared with ⟨other, isOther, edge, -⟩
          rw [isClass] at isOther
          cases isOther
          exact height_lt acyclic edge
        have further : ∀ ty, catalog.resolveSupertype raw ancestor = .ok (some ty) →
            (((catalog.bindingsAlong declared raw).apply ty).IsWellFormed ↔ _) :=
          fun ty isFurther =>
            ih (catalog.height raw) fewer (areWellFormed_bindingsAlong declaredWell raw)
              isFurther rfl
        rw [forall_passes_of_some towards isClass, and_comm]
        apply and_congr_right
        intro _
        rcases inheritance with ⟨rfl, rfl⟩ | ⟨ty, isFurther, rfl⟩
        · rw [← further (.nominal raw) (if_pos rfl), Bindings.apply_nominal]
          exact iff_of_true declaredWell (Ty.isWellFormed_nominal raw)
        · exact further ty isFurther

/--
The ancestor that is resolved for a type that some text denotes is well formed just if the search
for it passes no class with a wildcard for a parameter that stands, in what the class inherits from
the ancestor, alone where no wildcard may stand.
-/
theorem isWellFormed_resolveSupertypeOf {scope : Scope} (loaded : scope.catalog.IsLoaded)
    (acyclic : scope.catalog.IsAcyclic) {depth : Nat} {text : String} {ty : Ty}
    (read : scope.parse depth text = .ok ty) {found : Ty}
    (resolved : scope.catalog.resolveSupertypeOf ty ancestor = .ok (some found)) :
    found.IsWellFormed ↔
      ∀ passed bindings, scope.catalog.PassesFrom ancestor ty passed bindings →
        ¬scope.catalog.MisplacesIn ancestor passed bindings := by
  have wellFormed := (Scope.isDenotable_of_parse read).isWellFormed
  cases ty with
  | array | var | wildcard => cases resolved
  | nominal named =>
      exact isWellFormed_apply_inherited loaded acyclic Bindings.areWellFormed_empty resolved
  | parameterized owner raw arguments =>
      have argumentsWell : (Bindings.forClass scope.catalog raw arguments).AreWellFormed :=
        areWellFormed_forClass (Ty.isWellFormed_parameterized.1 wellFormed).2
      rw [resolveSupertypeOf] at resolved
      split at resolved
      · next same =>
        subst same
        cases resolved
        have isItself : scope.catalog.resolveSupertype raw raw = .ok (some (.nominal raw)) :=
          if_pos rfl
        have decided := isWellFormed_apply_inherited loaded acyclic argumentsWell isItself
        rw [Bindings.apply_nominal] at decided
        exact (iff_of_true wellFormed (Ty.isWellFormed_nominal raw)).trans decided
      · next different =>
        rcases exists_inherited_of_findSupertype loaded.hasLinkedSupertypes different
          (Nat.le_refl _) resolved with ⟨inherited, isInherited, rfl⟩
        exact isWellFormed_apply_inherited loaded acyclic argumentsWell isInherited

end

/-- The arrays of a type argument that is no wildcard are well formed. -/
theorem isWellFormed_resolved_box :
    boxes.IsAcyclic ∧
      ({ catalog := boxes } : Scope).parse 4 "a.Box<int>" =
        .ok (sampleOf "a.Box" (.ofPrimitive .int)) ∧
      boxes.resolveSupertypeOf (sampleOf "a.Box" (.ofPrimitive .int)) (.plain "a.Container") =
        .ok (some (sampleOf "a.Container" (.arrayOf (.ofPrimitive .int)))) ∧
      (sampleOf "a.Container" (.arrayOf (.ofPrimitive .int))).IsWellFormed := by
  have read : ({ catalog := boxes } : Scope).parse 4 "a.Box<int>" =
      .ok (sampleOf "a.Box" (.ofPrimitive .int)) := by
    decide +kernel
  have resolved : boxes.resolveSupertypeOf (sampleOf "a.Box" (.ofPrimitive .int))
      (.plain "a.Container") =
        .ok (some (sampleOf "a.Container" (.arrayOf (.ofPrimitive .int)))) := by
    decide +kernel
  have towards : boxes.supertypeTowards (.plain "a.Container") (.plain "a.Box") =
      some (sampleOf "a.Container" (.array (.var (.unbounded (.type (.plain "a.Box")) "T")))) := by
    decide +kernel
  have nowhere : boxes.supertypeTowards (.plain "a.Container") (.plain "a.Container") = none :=
    isAcyclic_boxes.supertypeTowards_self isLoaded_boxes.hasLinkedSupertypes _
  have spared : ∀ passed bindings, boxes.Passes (.plain "a.Container") (.plain "a.Box")
      (Bindings.forClass boxes (.plain "a.Box") [.ofPrimitive .int]) passed bindings →
        ¬boxes.MisplacesIn (.plain "a.Container") passed bindings := by
    rw [forall_passes_of_some towards rfl, forall_passes_of_none nowhere]
    constructor
    · rintro ⟨inherited, -, parameter, wildcard, -, bound, isWildcard⟩
      cases List.mem_singleton.1 (Bindings.mem_arguments_of_get?_forClass bound)
      cases isWildcard
    · rintro ⟨inherited, isItself, parameter, wildcard, exposed, -⟩
      cases isItself
      cases exposed
  exact ⟨isAcyclic_boxes, read, resolved,
    (isWellFormed_resolveSupertypeOf isLoaded_boxes isAcyclic_boxes read resolved).2 spared⟩

/-- A generic interface, one that extends it for subtypes of its parameter, and a raw subclass. -/
def rangeDocument : Document where
  classes := [
    { name := "a.Container", kind := .interface, typeParameters := [{ name := "E" }] },
    { name := "a.Range", kind := .interface, typeParameters := [{ name := "T" }],
      interfaces := ["Container<? extends T>"] },
    { name := "a.Year", interfaces := ["Range"] }]

/-- The catalog of these classes. -/
def ranges : Catalog := (Catalog.empty.extend rangeDocument).toOption.getD .empty

theorem isLoaded_ranges : ranges.IsLoaded := isLoaded_getD rangeDocument

theorem isAcyclic_ranges : ranges.IsAcyclic := by
  rw [isLoaded_ranges.hasLinkedSupertypes.isAcyclic_iff]
  decide +kernel

/--
A wildcard becomes the component of an array or the bound of a wildcard, whether it is written or
stands for the missing arguments of a supertype.
-/
theorem not_isWellFormed_resolved :
    (boxes.IsLoaded ∧ boxes.IsAcyclic ∧
      ({ catalog := boxes } : Scope).parse 4 "a.Box<?>" =
        .ok (sampleOf "a.Box" .unboundedWildcard) ∧
      boxes.resolveSupertypeOf (sampleOf "a.Box" .unboundedWildcard) (.plain "a.Container") =
        .ok (some (sampleOf "a.Container" (.array .unboundedWildcard))) ∧
      ¬(sampleOf "a.Container" (.array .unboundedWildcard)).IsWellFormed) ∧
    (ranges.IsLoaded ∧ ranges.IsAcyclic ∧
      ({ catalog := ranges } : Scope).parse 4 "a.Range<?>" =
        .ok (sampleOf "a.Range" .unboundedWildcard) ∧
      ({ catalog := ranges } : Scope).parse 4 "a.Year" = .ok (.nominal (.plain "a.Year")) ∧
      (∀ ty ∈ [sampleOf "a.Range" .unboundedWildcard, .nominal (.plain "a.Year")],
        ranges.resolveSupertypeOf ty (.plain "a.Container") =
          .ok (some (sampleOf "a.Container" (.extending .unboundedWildcard)))) ∧
      ¬(sampleOf "a.Container" (.extending .unboundedWildcard)).IsWellFormed) := by
  refine ⟨⟨isLoaded_boxes, isAcyclic_boxes, ?_⟩, isLoaded_ranges, isAcyclic_ranges, ?_⟩
  · decide +kernel
  · decide +kernel

end Catalog

end NominalTypes
