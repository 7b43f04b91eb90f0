import NominalTypes.Proofs.Catalog.Declarations
import NominalTypes.Proofs.Hierarchy.ClassOrder
import NominalTypes.Proofs.Hierarchy.SearchDepth

/-!
# Extension is conservative

What a loaded catalog knows of a class does not change when a document is added, provided that the
document declares no class with the name of a primitive type and that the supertypes of array classes
are there already. The supertypes of known classes lead to known classes only, since the classes of
later documents could not be named when they were read. So no comparison of known types and no search
for an ancestor comes to a class that it did not come to before, and each gives the answer that it
gave, or goes on for ever as it did.
-/

namespace NominalTypes

namespace Catalog

/-- The catalogs agree on the classes, and the supertypes of these lead to no others. -/
structure AgreesOn (catalog other : Catalog) (known : ClassName → Prop) : Prop where
  typeParameters : ∀ {named}, known named →
    other.typeParameters named = catalog.typeParameters named
  supertypes : ∀ {named}, known named → other.supertypes named = catalog.supertypes named
  closed : ∀ {named}, known named → ∀ supertype ∈ catalog.supertypes named,
    ∀ raw ∈ supertype.classes, known raw
  strip : ∀ {named} (dims : Nat), known named → known (named.strip dims)

theorem mem_classes_of_supertypeClass? {ty : Ty} {raw : ClassName}
    (isClass : supertypeClass? ty = some raw) : raw ∈ ty.classes := by
  cases ty with
  | array | var | wildcard => cases isClass
  | nominal named =>
      simp only [supertypeClass?, Option.ite_none_left_eq_some, Option.some.injEq] at isClass
      exact List.mem_singleton.2 isClass.2.symm
  | parameterized owner other arguments =>
      cases isClass
      exact List.mem_append_right _ List.mem_cons_self

section

variable {self other : Catalog} {known : ClassName → Prop} (agrees : self.AgreesOn other known)

include agrees

theorem AgreesOn.extends_iff {named supertype : ClassName} (isKnown : known named) :
    other.Extends named supertype ↔ self.Extends named supertype := by
  rw [Extends, Extends, erasedSupertypes, erasedSupertypes, agrees.supertypes isKnown]

theorem AgreesOn.known_of_extends (linked : self.HasLinkedSupertypes) {named supertype : ClassName}
    (isKnown : known named) (edge : self.Extends named supertype) : known supertype := by
  rcases List.mem_filterMap.1 edge with ⟨declared, isDeclared, erased⟩
  rcases linked.exists_erase isDeclared with ⟨raw, isClass, -⟩
  rw [erase_of_supertypeClass? isClass] at erased
  cases erased
  exact agrees.closed isKnown declared isDeclared supertype (mem_classes_of_supertypeClass? isClass)

/-- The same ancestors are reached from a class on which the catalogs agree. -/
theorem AgreesOn.reaches_iff (linked : self.HasLinkedSupertypes) {named ancestor : ClassName}
    (isKnown : known named) : other.Reaches named ancestor ↔ self.Reaches named ancestor := by
  constructor
  · intro path
    induction path with
    | refl => exact .refl _
    | step edge _ ih =>
        have kept := (agrees.extends_iff isKnown).1 edge
        exact .step kept (ih (agrees.known_of_extends linked isKnown kept))
  · intro path
    induction path with
    | refl => exact .refl _
    | step edge _ ih =>
        refine .step ((agrees.extends_iff isKnown).2 edge) (ih ?_)
        exact agrees.known_of_extends linked isKnown edge

/-- Known classes are assignable to the same classes. -/
theorem AgreesOn.classAssignable_eq (linked : self.HasLinkedSupertypes) {target source : ClassName}
    (isKnown : known source) :
    other.classAssignable target source = self.classAssignable target source := by
  have sameElement : ∀ superclass subclass, known subclass →
      other.elementAssignable superclass subclass = self.elementAssignable superclass subclass := by
    intro superclass subclass isKnown
    rw [Bool.eq_iff_iff, elementAssignable_iff, elementAssignable_iff,
      agrees.reaches_iff linked isKnown]
  simp only [classAssignable, sameElement _ _ (agrees.strip _ isKnown)]

/-- The search finds the same, along the same path, within each depth. -/
theorem AgreesOn.findSupertype_eq (linked : self.HasLinkedSupertypes) {named ancestor : ClassName}
    (isKnown : known named) (depth : Nat) (bindings : Bindings) :
    other.findSupertype ancestor depth named bindings =
      self.findSupertype ancestor depth named bindings := by
  induction depth generalizing named bindings with
  | zero => rfl
  | succ depth ih =>
      rw [findSupertype_succ, findSupertype_succ, agrees.supertypes isKnown]
      apply firstFound_congr
      intro declared isDeclared
      rcases linked.exists_erase isDeclared with ⟨raw, isClass, -⟩
      have rawKnown := agrees.closed isKnown declared isDeclared raw
        (mem_classes_of_supertypeClass? isClass)
      have sameBindings : ∀ supertype,
          other.bindingsAlong supertype raw = self.bindingsAlong supertype raw := by
        intro supertype
        simp only [bindingsAlong, Bindings.forClass, agrees.typeParameters rawKnown]
      rw [searchAt_of_supertypeClass? isClass, searchAt_of_supertypeClass? isClass,
        sameBindings, ih rawKnown]

/-- A step of the comparison is the same where the source is built from known classes. -/
theorem AgreesOn.comparisonStep_eq (linked : self.HasLinkedSupertypes)
    (compare : Ty → Ty → Option Bool) {target source : Ty}
    (isKnown : ∀ named ∈ source.classes, known named) :
    other.comparisonStep compare target source = self.comparisonStep compare target source := by
  simp only [comparisonStep]
  split
  · rfl
  · cases source with
    | array | var | wildcard => cases target <;> rfl
    | nominal named =>
        have namedKnown := isKnown named (List.mem_singleton.2 rfl)
        cases target <;>
          simp only [agrees.supertypes namedKnown, agrees.classAssignable_eq linked namedKnown]
    | parameterized owner raw arguments =>
        have rawKnown := isKnown raw (List.mem_append_right _ List.mem_cons_self)
        cases target <;> simp only [agrees.classAssignable_eq linked rawKnown]

/-- A comparison leads from types over known classes to such again. -/
theorem AgreesOn.isClosed : self.IsClosed fun ty => ∀ named ∈ ty.classes, known named where
  arguments := by
    intro owner raw arguments isKnown argument isArgument named isClass
    apply isKnown
    rw [Ty.classes, List.mem_append, List.mem_cons, Ty.mem_classesAll]
    exact Or.inr (Or.inr ⟨argument, isArgument, isClass⟩)
  bounds := by
    intro upper lower isKnown bound isBound named isClass
    apply isKnown
    rw [Ty.classes, List.mem_append, Ty.mem_classesAll, Ty.mem_classesAll]
    rcases List.mem_append.1 isBound with isUpper | isLower
    · exact Or.inl ⟨bound, isUpper, isClass⟩
    · exact Or.inr ⟨bound, isLower, isClass⟩
  supertypes := by
    intro named isKnown
    exact agrees.closed (isKnown named (List.mem_singleton.2 rfl))

/-- The comparison has the same answer, or none in both catalogs, within each depth. -/
theorem AgreesOn.assignableWithin_eq (linked : self.HasLinkedSupertypes) {target source : Ty}
    (targetKnown : ∀ named ∈ target.classes, known named)
    (sourceKnown : ∀ named ∈ source.classes, known named) (depth : Nat) :
    other.assignableWithin depth target source = self.assignableWithin depth target source := by
  induction depth generalizing target source with
  | zero => rfl
  | succ depth ih =>
      rw [assignableWithin_succ, assignableWithin_succ, agrees.comparisonStep_eq linked _ sourceKnown]
      apply Option.ext
      intro answer
      constructor
      · apply agrees.isClosed.comparisonStep_mono _ targetKnown sourceKnown
        intro left right leftKnown rightKnown given isGiven
        rwa [← ih leftKnown rightKnown]
      · apply agrees.isClosed.comparisonStep_mono _ targetKnown sourceKnown
        intro left right leftKnown rightKnown given isGiven
        rwa [ih leftKnown rightKnown]

/-- Types over known classes are assignable as before. -/
theorem AgreesOn.assignable_eq (linked : self.HasLinkedSupertypes) {target source : Ty}
    (targetKnown : ∀ named ∈ target.classes, known named)
    (sourceKnown : ∀ named ∈ source.classes, known named) :
    other.assignable target source = self.assignable target source := by
  apply eq_of_eq_ok_iff _ (fun _ => assignable_eq_error) fun _ => assignable_eq_error
  intro answer
  simp only [assignable_eq_ok_iff, agrees.assignableWithin_eq linked targetKnown sourceKnown]

/-- The ancestors of known classes are resolved as before. -/
theorem AgreesOn.resolveSupertype_eq (linked : self.HasLinkedSupertypes)
    (otherLinked : other.HasLinkedSupertypes) {named : ClassName} (isKnown : known named)
    (ancestor : ClassName) :
    other.resolveSupertype named ancestor = self.resolveSupertype named ancestor := by
  simp only [resolveSupertype]
  split
  · rfl
  · apply eq_of_eq_ok_iff _ (fun _ => findSupertype_eq_error) fun _ => findSupertype_eq_error
    intro found
    rw [linked.findSupertype_eq_ok_iff, otherLinked.findSupertype_eq_ok_iff]
    simp only [agrees.findSupertype_eq linked isKnown]

end

/-- The names of the classes that array classes have as supertypes. -/
def arraySupertypes : List String := ClassName.object.name :: arrayInterfaces

/-- A known class that is not declared is an array class or a primitive type. -/
theorem isPrimitive_of_get?_eq_none {self : Catalog} {named : ClassName}
    (known : self.contains named = true) (plain : named.dims = 0)
    (missing : self.get? named = none) : (Primitive.ofKeyword? named.name).isSome = true := by
  simp only [contains, Bool.or_eq_true] at known
  rcases known with isPrimitive | declared
  · exact isPrimitive
  · rcases exists_get?_of_declares declared with ⟨info, found⟩
    have isNamed : ClassName.plain named.name = named := ClassName.element_of_dims plain
    rw [isNamed, missing] at found
    cases found

/-- The supertypes of a class name no other classes than known ones. -/
theorem IsLoaded.contains_of_supertype {self : Catalog} (loaded : self.IsLoaded)
    (arrays : ∀ name ∈ arraySupertypes, self.declares name = true) {named : ClassName}
    {supertype : Ty} (isSupertype : supertype ∈ self.supertypes named) {raw : ClassName}
    (isClass : raw ∈ supertype.classes) : self.contains raw = true := by
  rcases mem_supertypes_cases isSupertype with ⟨name, isName, rfl⟩ | ⟨info, found, isDeclared⟩
  · cases List.mem_singleton.1 isClass
    exact contains_of_declares (arrays name isName)
  · have declared := loaded.isWellDeclared info (mem_classes_of_get? found)
    rcases (declared.supertypes supertype isDeclared).known raw isClass with rfl | known
    · exact contains_of_declares (arrays _ List.mem_cons_self)
    · exact known

section

variable {self extended : Catalog} {added : List ClassInfo}
  (divided : extended.classes = self.classes ++ added)
  (unreserved : ∀ info ∈ added, Primitive.ofKeyword? info.name = none)
  (arrays : ∀ name ∈ arraySupertypes, self.declares name = true)

include divided

theorem declares_of_append {name : String} (declared : self.declares name = true) :
    extended.declares name = true := by
  rcases exists_get?_of_declares declared with ⟨info, found⟩
  exact declares_of_get? (get?_of_append divided found)

include unreserved

/-- Nothing is added to what is declared about a known class, not even about a primitive type. -/
theorem get?_of_contains {named : ClassName} (known : self.contains named = true) :
    extended.get? named = self.get? named := by
  cases found : self.get? named with
  | some info => exact get?_of_append divided found
  | none =>
      by_cases plain : named.dims = 0
      · have isPrimitive := isPrimitive_of_get?_eq_none known plain found
        simp only [get?, plain, if_true] at found ⊢
        rw [divided, List.find?_append, found, Option.none_or, List.find?_eq_none]
        intro info isAdded sameName
        rw [← of_decide_eq_true sameName, unreserved info isAdded] at isPrimitive
        cases isPrimitive
      · simp only [get?, if_neg plain]

include arrays

/-- The facts about a known class stay as they are. -/
theorem hasSameFacts_of_contains {named : ClassName} (known : self.contains named = true) :
    self.HasSameFacts extended named := by
  have sameInfo := get?_of_contains divided unreserved known
  have stillKnown := (isKeptBy_of_append divided).contains known
  have sameInterfaces : arrayInterfaces.filter extended.declares =
      arrayInterfaces.filter self.declares := by
    apply List.filter_congr
    intro name isInterface
    have declared := arrays name (List.mem_cons_of_mem _ isInterface)
    rw [declared, declares_of_append divided declared]
  refine ⟨by rw [sameInfo], ?_, ?_, ?_⟩
  · simp only [typeParameters, sameInfo]
  · simp only [superclass, sameInfo, known, stillKnown]
  · simp only [interfaces, sameInfo, known, stillKnown, sameInterfaces]

/-- A loaded catalog and one with further classes agree on the classes that it knows. -/
theorem IsLoaded.agreesOn (loaded : self.IsLoaded) :
    self.AgreesOn extended fun named => self.contains named = true where
  typeParameters := by
    intro named known
    exact (hasSameFacts_of_contains divided unreserved arrays known).typeParameters
  supertypes := by
    intro named known
    have same := hasSameFacts_of_contains divided unreserved arrays known
    rw [supertypes, supertypes, same.superclass, same.interfaces]
  closed := by
    intro named _ supertype isSupertype raw isClass
    exact loaded.contains_of_supertype arrays isSupertype isClass
  strip := fun _ known => known

end

theorem unreserved_of_links {skeletons : Catalog} {declarations : List ClassDeclaration}
    {linked : List ClassInfo} (links : List.Forall₂ skeletons.Links declarations linked)
    (unreserved : ∀ declaration ∈ declarations, Primitive.ofKeyword? declaration.name = none) :
    ∀ info ∈ linked, Primitive.ofKeyword? info.name = none := by
  intro info isLinked
  have isName := List.mem_map_of_mem (f := ClassInfo.name) isLinked
  rw [names_of_links links, List.map_map] at isName
  rcases List.mem_map.1 isName with ⟨declaration, isDeclaration, sameName⟩
  rw [← sameName]
  exact unreserved declaration isDeclaration

/--
Whatever document is added to a loaded catalog which knows the supertypes of array classes, the names
of its classes come behind the ones before. Known classes keep their facts, and the answers to all
questions about known classes and types stay the same.
-/
theorem extend_isConservative {self extended : Catalog} {document : Document}
    (loaded : self.IsLoaded)
    (arrays : ∀ name ∈ ["java.lang.Object", "java.lang.Cloneable", "java.io.Serializable"],
      self.declares name = true)
    (accepted : self.extend document = .ok extended)
    (unreserved : ∀ declaration ∈ document.classes,
      Primitive.ofKeyword? declaration.name = none) :
    extended.names = self.names ++ document.classes.map ClassDeclaration.name ∧
      (∀ named, self.contains named = true →
        extended.contains named = true ∧ self.HasSameFacts extended named) ∧
      (∀ target source, self.contains target = true → self.contains source = true →
        extended.classAssignable target source = self.classAssignable target source) ∧
      (∀ named ancestor, self.contains named = true → self.contains ancestor = true →
        extended.resolveSupertype named ancestor = self.resolveSupertype named ancestor) ∧
      ∀ target source, (∀ named ∈ target.classes, self.contains named = true) →
        (∀ named ∈ source.classes, self.contains named = true) →
          extended.assignable target source = self.assignable target source := by
  rcases exists_linked_of_extend accepted with ⟨skeletons, added, declared, links, divided⟩
  have linked := loaded.hasLinkedSupertypes
  have otherLinked := (loaded.extend accepted).hasLinkedSupertypes
  have addedUnreserved := unreserved_of_links links unreserved
  have agrees := loaded.agreesOn divided addedUnreserved arrays
  refine ⟨names_of_extend accepted, ?_, ?_, ?_, ?_⟩
  · intro named known
    exact ⟨(isKeptBy_of_append divided).contains known,
      hasSameFacts_of_contains divided addedUnreserved arrays known⟩
  · intro target source _ known
    exact agrees.classAssignable_eq linked known
  · intro named ancestor known _
    exact agrees.resolveSupertype_eq linked otherLinked known ancestor
  · intro target source targetKnown sourceKnown
    exact agrees.assignable_eq linked targetKnown sourceKnown

/-- The supertypes of array classes and a class of boxes that can be cloned. -/
def cloneableBoxDocument : Document where
  classes := [
    { name := "java.lang.Object" },
    { name := "java.lang.Cloneable", kind := .interface },
    { name := "java.io.Serializable", kind := .interface },
    { name := "a.Box", typeParameters := [{ name := "T" }], interfaces := ["Cloneable"] }]

/-- The catalog of these classes. -/
def cloneableBoxes : Catalog := (Catalog.empty.extend cloneableBoxDocument).toOption.getD .empty

/-- A class of boxes more. -/
def moreBoxesDocument : Document where
  classes := [{ name := "a.Crate", superclass := some "Box<Crate[]>" }]

/-- The class of crates comes behind the other ones, and the array classes stay what they were. -/
theorem extend_isConservative_crates :
    ∃ extended, cloneableBoxes.extend moreBoxesDocument = .ok extended ∧
      extended.names = ["java.lang.Object", "java.lang.Cloneable", "java.io.Serializable", "a.Box",
        "a.Crate"] ∧
      extended.interfaces ⟨"int", 1, by decide⟩ =
        [.nominal (.plain "java.lang.Cloneable"), .nominal (.plain "java.io.Serializable")] ∧
      extended.classAssignable (.plain "java.io.Serializable") ⟨"a.Box", 1, by decide⟩ = true ∧
      extended.resolveSupertype (.plain "a.Box") (.plain "java.io.Serializable") = .ok none ∧
      extended.assignable (sampleOf "a.Box" .unboundedWildcard) (sampleOf "a.Box" .object) =
        .ok true := by
  have isLoaded : cloneableBoxes.IsLoaded := isLoaded_getD cloneableBoxDocument
  have isAccepted : (cloneableBoxes.extend moreBoxesDocument).toOption.isSome = true := by
    decide +kernel
  rcases exists_eq_ok_of_isSome isAccepted with ⟨extended, accepted⟩
  rcases extend_isConservative isLoaded (by decide +kernel) accepted (by decide) with
    ⟨sameNames, sameFacts, sameClasses, sameAncestors, sameTypes⟩
  refine ⟨extended, accepted, ?_, ?_, ?_, ?_, ?_⟩
  · rw [sameNames]
    decide +kernel
  · rw [(sameFacts _ (by decide +kernel)).2.interfaces]
    decide +kernel
  · rw [sameClasses _ _ (by decide +kernel) (by decide +kernel)]
    decide +kernel
  · rw [sameAncestors _ _ (by decide +kernel) (by decide +kernel)]
    decide +kernel
  · rw [sameTypes _ _ (by decide +kernel) (by decide +kernel)]
    decide +kernel

end Catalog

end NominalTypes
