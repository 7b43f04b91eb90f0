import Mathlib.Data.Finset.Card
import NominalTypes.Hierarchy.Supertype
import NominalTypes.Proofs.Catalog.Linking
import NominalTypes.Proofs.Ty.Substitution

/-!
# The search for an ancestor ends

On an acyclic graph of supertypes each step of the search has fewer proper ancestors before it than
the step that led to it. There are no more proper ancestors than the depth limit of the search
allows, so that it always answers, whatever bindings it starts with. It goes on at the first
supertype over which the ancestor is reached, and finds it there: no supertype is followed in vain.
-/

namespace NominalTypes

section

variable {item result : Type} {find : item → Except TypeError (Option result)} {items : List item}

/-- Where each item is found something at just if it is marked, the first marked item decides. -/
theorem firstFound_eq_find? {marked : item → Bool}
    (answers : ∀ item ∈ items, ∃ found, find item = .ok found ∧ found.isSome = marked item) :
    firstFound find items =
      match items.find? marked with
      | none => .ok none
      | some item => find item := by
  induction items with
  | nil => rfl
  | cons first rest ih =>
      rcases List.forall_mem_cons.1 answers with ⟨⟨found, isFound, isMarked⟩, others⟩
      cases found with
      | none =>
          have unmarked : marked first = false := isMarked.symm
          simp only [firstFound, isFound, List.find?_cons, unmarked]
          exact ih others
      | some found =>
          have isMarked : marked first = true := isMarked.symm
          simp [firstFound, isFound, isMarked]

theorem exists_of_firstFound {found : result} (isFound : firstFound find items = .ok (some found)) :
    ∃ item ∈ items, find item = .ok (some found) := by
  induction items with
  | nil => cases isFound
  | cons first rest ih =>
      simp only [firstFound] at isFound
      split at isFound
      · rcases ih isFound with ⟨item, member, isItem⟩
        exact ⟨item, List.mem_cons_of_mem _ member, isItem⟩
      · exact ⟨first, List.mem_cons_self, isFound⟩

/-- An answer stays the same when the search at each item gives more answers. -/
theorem firstFound_of_answers {other : item → Except TypeError (Option result)}
    {answer : Option result}
    (kept : ∀ item ∈ items, ∀ found, find item = .ok found → other item = .ok found)
    (isAnswer : firstFound find items = .ok answer) : firstFound other items = .ok answer := by
  induction items with
  | nil => exact isAnswer
  | cons first rest ih =>
      rcases List.forall_mem_cons.1 kept with ⟨keepsFirst, others⟩
      simp only [firstFound] at isAnswer ⊢
      split at isAnswer
      · next missing =>
        rw [keepsFirst none missing]
        exact ih others isAnswer
      · next found =>
        rw [keepsFirst answer isAnswer]
        cases answer with
        | none => exact absurd isAnswer found
        | some ty => rfl

/-- Where the items give the images of what they give in another search, so does the list. -/
theorem firstFound_map {other : Type} {image : item → Except TypeError (Option other)}
    {transform : result → other}
    (each : ∀ item ∈ items, image item = (find item).map (Option.map transform)) :
    firstFound image items = (firstFound find items).map (Option.map transform) := by
  induction items with
  | nil => rfl
  | cons first rest ih =>
      rcases List.forall_mem_cons.1 each with ⟨isFirst, others⟩
      simp only [firstFound]
      rw [isFirst, ih others]
      cases find first with
      | error cause => rfl
      | ok found => cases found <;> rfl

end

namespace Catalog

variable {catalog : Catalog} {named : ClassName}

theorem erase_of_supertypeClass? {ty : Ty} {raw : ClassName}
    (isClass : supertypeClass? ty = some raw) : ty.erase = .ok raw := by
  cases ty with
  | array | var | wildcard => cases isClass
  | parameterized owner other arguments =>
      cases isClass
      rfl
  | nominal other =>
      simp only [supertypeClass?, Option.ite_none_left_eq_some, Option.some.injEq] at isClass
      rw [← isClass.2]
      rfl

/-- Bindings do not change the class that a supertype names. -/
theorem supertypeClass?_apply (bindings : Bindings) {ty : Ty} {raw : ClassName}
    (isClass : supertypeClass? ty = some raw) : supertypeClass? (bindings.apply ty) = some raw := by
  cases ty with
  | array | var | wildcard => cases isClass
  | nominal other => rwa [Bindings.apply_nominal]
  | parameterized owner other arguments => rwa [Bindings.apply_parameterized]

/-- A supertype of a class names a class that the class extends, under all bindings. -/
theorem HasLinkedSupertypes.exists_erase (linked : catalog.HasLinkedSupertypes) {supertype : Ty}
    (isSupertype : supertype ∈ catalog.supertypes named) :
    ∃ raw, supertypeClass? supertype = some raw ∧ catalog.Extends named raw ∧
      ∀ bindings : Bindings, (bindings.apply supertype).erase = .ok raw := by
  rcases Option.isSome_iff_exists.1 (linked.isSupertypeOver isSupertype).namesClass with
      ⟨raw, isClass⟩
  refine ⟨raw, isClass, ?_, ?_⟩
  · apply List.mem_filterMap.2
    refine ⟨supertype, isSupertype, ?_⟩
    rw [erase_of_supertypeClass? isClass]
    rfl
  · intro bindings
    exact erase_of_supertypeClass? (supertypeClass?_apply bindings isClass)

/-- The search binds type parameters to arguments of the supertype or to unbounded wildcards. -/
theorem eq_or_mem_of_get?_bindingsAlong {supertype ty : Ty} {raw : ClassName}
    {parameter : TypeVariable}
    (bound : (catalog.bindingsAlong supertype raw).get? parameter = some ty) :
    ty = .unboundedWildcard ∨
      ∃ owner other arguments, supertype = .parameterized owner other arguments ∧
        ty ∈ arguments := by
  cases supertype with
  | parameterized owner other arguments =>
      exact .inr ⟨owner, other, arguments, rfl, Bindings.mem_arguments_of_get?_forClass bound⟩
  | nominal | array | var | wildcard =>
      rcases List.mem_map.1 (Bindings.mem_of_get?_ofList bound) with ⟨_, -, isPair⟩
      exact .inl (congrArg Prod.snd isPair).symm

/-- The classes that are reached from a class over at least one supertype. -/
def properAncestors (self : Catalog) (named : ClassName) : List ClassName :=
  self.erasedCarrier.filter fun ancestor =>
    (self.erasedSupertypes named).any fun supertype => ancestor ∈ self.ancestors supertype

theorem Reaches.exists_extends {first second third : ClassName}
    (edge : catalog.Extends first second) (path : catalog.Reaches second third) :
    ∃ last, catalog.Extends last third := by
  induction path generalizing first with
  | refl => exact ⟨first, edge⟩
  | step next _ ih => exact ih next

theorem mem_properAncestors {ancestor : ClassName} :
    ancestor ∈ catalog.properAncestors named ↔
      ∃ supertype, catalog.Extends named supertype ∧ catalog.Reaches supertype ancestor := by
  simp only [properAncestors, List.mem_filter, List.any_eq_true, decide_eq_true_eq,
    mem_ancestors_iff]
  constructor
  · rintro ⟨-, supertype, edge, path⟩
    exact ⟨supertype, edge, path⟩
  · rintro ⟨supertype, edge, path⟩
    rcases path.exists_extends edge with ⟨last, isLast⟩
    exact ⟨isLast.mem_erasedCarrier, supertype, edge, path⟩

/-- The number of classes that are reached from a class over at least one supertype. -/
def height (self : Catalog) (named : ClassName) : Nat :=
  (self.properAncestors named).toFinset.card

/-- On an acyclic graph a supertype has fewer proper ancestors: it is none of its own. -/
theorem height_lt (acyclic : catalog.IsAcyclic) {supertype : ClassName}
    (edge : catalog.Extends named supertype) : catalog.height supertype < catalog.height named := by
  apply Finset.card_lt_card
  rw [Finset.ssubset_iff_of_subset]
  · refine ⟨supertype, ?_, ?_⟩
    · exact List.mem_toFinset.2 (mem_properAncestors.2 ⟨supertype, edge, .refl supertype⟩)
    · intro member
      rcases mem_properAncestors.1 (List.mem_toFinset.1 member) with ⟨middle, next, path⟩
      exact acyclic supertype middle next path
  · intro ancestor member
    rcases mem_properAncestors.1 (List.mem_toFinset.1 member) with ⟨middle, next, path⟩
    exact List.mem_toFinset.2 (mem_properAncestors.2 ⟨supertype, edge, .step next path⟩)

/-- A class has fewer proper ancestors than the depth of the search. -/
theorem height_lt_searchDepth (catalog : Catalog) (named : ClassName) :
    catalog.height named < catalog.searchDepth := by
  have distinct := (catalog.properAncestors named).toFinset_card_le
  have fewer : (catalog.properAncestors named).length ≤ catalog.erasedCarrier.length :=
    List.length_filter_le _ _
  have bounded := catalog.length_erasedCarrier_le
  simp only [height, searchDepth]
  omega

theorem Extends.exists_info {supertype : ClassName} (edge : catalog.Extends named supertype)
    (plain : named.isArray = false) : ∃ info ∈ catalog.classes, named = .plain info.name := by
  rcases List.mem_filterMap.1 edge with ⟨declared, isDeclared, -⟩
  cases found : catalog.get? named with
  | none =>
      rw [supertypes_of_get?_none plain found] at isDeclared
      cases isDeclared
  | some info =>
      refine ⟨info, mem_classes_of_get? found, ?_⟩
      have isName := get?_name found
      have noDims := get?_dims found
      rcases named with ⟨name, dims, fits⟩
      cases noDims
      cases isName
      rfl

/-- A class that is extended is neither an array nor primitive, or it is a known class. -/
theorem HasLinkedSupertypes.extends_cases (linked : catalog.HasLinkedSupertypes)
    {supertype : ClassName} (edge : catalog.Extends named supertype) :
    (supertype.isArray = false ∧ supertype.isPrimitive = false) ∨
      ∃ info, catalog.get? supertype = some info := by
  rcases List.mem_filterMap.1 edge with ⟨declared, isDeclared, erased⟩
  have built := linked.isSupertypeOver isDeclared
  rcases Option.isSome_iff_exists.1 built.namesClass with ⟨raw, isClass⟩
  rw [erase_of_supertypeClass? isClass] at erased
  cases erased
  cases declared with
  | array | var | wildcard => cases isClass
  | nominal other =>
      left
      simp only [supertypeClass?, Option.ite_none_left_eq_some, Option.some.injEq,
        Bool.or_eq_true, not_or, Bool.not_eq_true] at isClass
      rw [← isClass.2]
      exact isClass.1
  | parameterized owner other arguments =>
      right
      cases isClass
      have fits := built.applied _ (Ty.mem_parts_self _)
      exact exists_get?_of_arity fits.arity_ne_zero

theorem HasLinkedSupertypes.isArray_eq_false (linked : catalog.HasLinkedSupertypes)
    {supertype : ClassName} (edge : catalog.Extends named supertype) :
    supertype.isArray = false := by
  rcases linked.extends_cases edge with ⟨plain, -⟩ | ⟨info, found⟩
  · exact plain
  · simp [ClassName.isArray, get?_dims found]

/-- A linked catalog is acyclic when none of its declared classes is reached from itself. -/
theorem HasLinkedSupertypes.isAcyclic_iff (linked : catalog.HasLinkedSupertypes) :
    catalog.IsAcyclic ↔ ∀ info ∈ catalog.classes,
      ∀ supertype ∈ catalog.erasedSupertypes (.plain info.name),
        .plain info.name ∉ catalog.ancestors supertype := by
  constructor
  · intro acyclic info _ supertype edge member
    exact acyclic _ supertype edge (mem_ancestors_iff.1 member)
  · intro declared named supertype edge path
    rcases path.exists_extends edge with ⟨last, isLast⟩
    rcases edge.exists_info (linked.isArray_eq_false isLast) with ⟨info, member, rfl⟩
    exact declared info member supertype edge (mem_ancestors_iff.2 path)

theorem isLoaded_getD (document : Document) :
    ((Catalog.empty.extend document).toOption.getD .empty).IsLoaded := by
  cases extended : Catalog.empty.extend document with
  | error cause => exact .empty
  | ok catalog => exact .extend .empty extended

/-- A class of the sample catalog applied to an argument. -/
def sampleOf (name : String) (argument : Ty) : Ty := .parameterized none (.plain name) [argument]

/-- A generic interface and a generic class that implements it for arrays of its parameter. -/
def boxDocument : Document where
  classes := [
    { name := "a.Container", kind := .interface, typeParameters := [{ name := "E" }] },
    { name := "a.Box", typeParameters := [{ name := "T" }], interfaces := ["Container<T[]>"] }]

/-- The catalog of the two classes. -/
def boxes : Catalog := (Catalog.empty.extend boxDocument).toOption.getD .empty

theorem isLoaded_boxes : boxes.IsLoaded := isLoaded_getD boxDocument

theorem isAcyclic_boxes : boxes.IsAcyclic := by
  rw [isLoaded_boxes.hasLinkedSupertypes.isAcyclic_iff]
  decide +kernel

/-- The ancestor is reached from the class that the supertype names. -/
def reachesOver (self : Catalog) (ancestor : ClassName) (supertype : Ty) : Bool :=
  match supertypeClass? supertype with
  | some raw => ancestor ∈ self.ancestors raw
  | none => false

/-- The first supertype of a class over which the ancestor is reached. -/
def supertypeTowards (self : Catalog) (ancestor named : ClassName) : Option Ty :=
  (self.supertypes named).find? (self.reachesOver ancestor)

/-- What the search finds at a supertype that it comes to with bindings. -/
def searchAt (self : Catalog) (ancestor : ClassName) (depth : Nat) (bindings : Bindings)
    (declared : Ty) : Except TypeError (Option Ty) :=
  match (bindings.apply declared).erase with
  | .error _ => .ok none
  | .ok raw =>
      if raw = ancestor then .ok (some (bindings.apply declared))
      else
        self.findSupertype ancestor depth raw (self.bindingsAlong (bindings.apply declared) raw)

variable {ancestor : ClassName}

/-- One more level of depth searches at the supertypes one after the other. -/
theorem findSupertype_succ (depth : Nat) (bindings : Bindings) :
    catalog.findSupertype ancestor (depth + 1) named bindings =
      firstFound (catalog.searchAt ancestor depth bindings) (catalog.supertypes named) := rfl

/-- A supertype is what is searched for, or the search goes on from its class. -/
theorem searchAt_of_supertypeClass? {declared : Ty} {raw : ClassName}
    (isClass : supertypeClass? declared = some raw) (depth : Nat) (bindings : Bindings) :
    catalog.searchAt ancestor depth bindings declared =
      if raw = ancestor then .ok (some (bindings.apply declared))
      else
        catalog.findSupertype ancestor depth raw
          (catalog.bindingsAlong (bindings.apply declared) raw) := by
  simp only [searchAt, erase_of_supertypeClass? (supertypeClass?_apply bindings isClass)]

theorem reachesOver_iff {supertype : Ty} {raw : ClassName}
    (isClass : supertypeClass? supertype = some raw) :
    catalog.reachesOver ancestor supertype = true ↔ catalog.Reaches raw ancestor := by
  simp [reachesOver, isClass, mem_ancestors_iff]

/-- Some supertype leads to the ancestor exactly if one reaches it. -/
theorem HasLinkedSupertypes.supertypeTowards_isSome_iff (linked : catalog.HasLinkedSupertypes) :
    (catalog.supertypeTowards ancestor named).isSome = true ↔
      ∃ supertype, catalog.Extends named supertype ∧ catalog.Reaches supertype ancestor := by
  rw [supertypeTowards, List.find?_isSome]
  constructor
  · rintro ⟨supertype, isSupertype, isReached⟩
    rcases linked.exists_erase isSupertype with ⟨raw, isClass, edge, -⟩
    exact ⟨raw, edge, (reachesOver_iff isClass).1 isReached⟩
  · rintro ⟨raw, edge, path⟩
    rcases List.mem_filterMap.1 edge with ⟨supertype, isSupertype, erased⟩
    rcases linked.exists_erase isSupertype with ⟨other, isClass, -⟩
    rw [erase_of_supertypeClass? isClass] at erased
    cases erased
    exact ⟨supertype, isSupertype, (reachesOver_iff isClass).2 path⟩

theorem Reaches.exists_extends_of_ne (path : catalog.Reaches named ancestor)
    (different : named ≠ ancestor) :
    ∃ supertype, catalog.Extends named supertype ∧ catalog.Reaches supertype ancestor := by
  cases path with
  | refl => exact absurd rfl different
  | step edge rest => exact ⟨_, edge, rest⟩

/-- The search answers, and it finds something just if some supertype leads to the ancestor. -/
def AnswersWithin (self : Catalog) (ancestor : ClassName) (depth : Nat) : Prop :=
  ∀ named bindings, self.height named < depth →
    ∃ found, self.findSupertype ancestor depth named bindings = .ok found ∧
      found.isSome = (self.supertypeTowards ancestor named).isSome

section

variable (linked : catalog.HasLinkedSupertypes) (acyclic : catalog.IsAcyclic)

include linked acyclic

/-- A search at a supertype ends, and finds something just if the ancestor is reached there. -/
theorem exists_searchAt {depth : Nat} (deeper : catalog.AnswersWithin ancestor depth)
    (enough : catalog.height named ≤ depth) (bindings : Bindings) {declared : Ty}
    (isDeclared : declared ∈ catalog.supertypes named) :
    ∃ found, catalog.searchAt ancestor depth bindings declared = .ok found ∧
      found.isSome = catalog.reachesOver ancestor declared := by
  rcases linked.exists_erase isDeclared with ⟨raw, isClass, edge, -⟩
  rw [searchAt_of_supertypeClass? isClass]
  split
  · next isAncestor =>
    subst isAncestor
    exact ⟨_, rfl, ((reachesOver_iff isClass).2 (.refl raw)).symm⟩
  · next different =>
    have fewer := height_lt acyclic edge
    rcases deeper raw (catalog.bindingsAlong (bindings.apply declared) raw) (by omega) with
      ⟨found, isFound, isSome⟩
    refine ⟨found, isFound, ?_⟩
    rw [isSome, Bool.eq_iff_iff, reachesOver_iff isClass, linked.supertypeTowards_isSome_iff]
    constructor
    · rintro ⟨supertype, next, path⟩
      exact .step next path
    · intro path
      exact path.exists_extends_of_ne different

/-- The search goes on at the first supertype over which the ancestor is reached. -/
theorem findSupertype_eq_searchAt {depth : Nat} (deeper : catalog.AnswersWithin ancestor depth)
    (enough : catalog.height named ≤ depth) (bindings : Bindings) :
    catalog.findSupertype ancestor (depth + 1) named bindings =
      match catalog.supertypeTowards ancestor named with
      | none => .ok none
      | some declared => catalog.searchAt ancestor depth bindings declared := by
  have answers : ∀ declared ∈ catalog.supertypes named, ∃ found,
      catalog.searchAt ancestor depth bindings declared = .ok found ∧
        found.isSome = catalog.reachesOver ancestor declared := by
    intro declared isDeclared
    exact exists_searchAt linked acyclic deeper enough bindings isDeclared
  rw [findSupertype_succ, firstFound_eq_find? answers, supertypeTowards]
  cases (catalog.supertypes named).find? (catalog.reachesOver ancestor) <;> rfl

/-- With more depth than a class has proper ancestors the search answers, under all bindings. -/
theorem answersWithin (ancestor : ClassName) (depth : Nat) :
    catalog.AnswersWithin ancestor depth := by
  induction depth with
  | zero => exact fun _ _ enough => absurd enough (Nat.not_lt_zero _)
  | succ depth ih =>
      intro named bindings enough
      have within : catalog.height named ≤ depth := Nat.le_of_lt_succ enough
      rw [findSupertype_eq_searchAt linked acyclic ih within bindings]
      cases towards : catalog.supertypeTowards ancestor named with
      | none => exact ⟨none, rfl, rfl⟩
      | some declared =>
          have isReached := List.find?_some towards
          rcases exists_searchAt linked acyclic ih within bindings
            (List.mem_of_find?_eq_some towards) with ⟨found, isFound, isSome⟩
          exact ⟨found, isFound, isSome.trans isReached⟩

end

/-- The search ends in every depth above the number of proper ancestors. -/
theorem exists_findSupertype (linked : catalog.HasLinkedSupertypes) (acyclic : catalog.IsAcyclic)
    (ancestor : ClassName) {depth : Nat} (bindings : Bindings)
    (enough : catalog.height named < depth) :
    ∃ found, catalog.findSupertype ancestor depth named bindings = .ok found := by
  rcases answersWithin linked acyclic ancestor depth named bindings enough with ⟨found, isFound, -⟩
  exact ⟨found, isFound⟩

/-- What the search answers within some depth it answers within each greater depth. -/
theorem findSupertype_of_le {depth deeper : Nat} (within : depth ≤ deeper)
    {bindings : Bindings} {found : Option Ty}
    (isFound : catalog.findSupertype ancestor depth named bindings = .ok found) :
    catalog.findSupertype ancestor deeper named bindings = .ok found := by
  induction depth generalizing deeper named bindings found with
  | zero => cases isFound
  | succ depth ih =>
      cases deeper with
      | zero => cases within
      | succ deeper =>
          simp only [findSupertype] at isFound ⊢
          refine firstFound_of_answers ?_ isFound
          intro declared _ answer isAnswer
          split at isAnswer
          · exact isAnswer
          · split at isAnswer
            · next isAncestor => rwa [if_pos isAncestor]
            · next different =>
              rw [if_neg different]
              exact ih (Nat.le_of_succ_le_succ within) isAnswer

/--
What is carried along from each class with its bindings to those that a supertype leads to is there
wherever the search comes. So what it finds has each property that supertypes get from this.
-/
theorem HasLinkedSupertypes.holds_of_findSupertype (linked : catalog.HasLinkedSupertypes)
    {carries : ClassName → Bindings → Prop} {holds : Ty → Prop}
    (found : ∀ named bindings, carries named bindings →
      ∀ declared ∈ catalog.supertypes named, holds (bindings.apply declared))
    (onward : ∀ named bindings, carries named bindings →
      ∀ declared ∈ catalog.supertypes named, ∀ raw, supertypeClass? declared = some raw →
        carries raw (catalog.bindingsAlong (bindings.apply declared) raw))
    {depth : Nat} {bindings : Bindings} {ty : Ty} (carried : carries named bindings)
    (isFound : catalog.findSupertype ancestor depth named bindings = .ok (some ty)) :
    holds ty := by
  induction depth generalizing named bindings with
  | zero => cases isFound
  | succ depth ih =>
      rcases exists_of_firstFound isFound with ⟨declared, isDeclared, answer⟩
      rcases linked.exists_erase isDeclared with ⟨raw, isClass, -, erased⟩
      simp only [erased bindings] at answer
      split at answer
      · cases answer
        exact found named bindings carried declared isDeclared
      · exact ih (onward named bindings carried declared isDeclared raw isClass) answer

/-- What the search finds names the ancestor, and it is found along a path to the ancestor. -/
theorem HasLinkedSupertypes.reaches_of_findSupertype (linked : catalog.HasLinkedSupertypes)
    {depth : Nat} {bindings : Bindings} {found : Ty}
    (isFound : catalog.findSupertype ancestor depth named bindings = .ok (some found)) :
    supertypeClass? found = some ancestor ∧ catalog.Reaches named ancestor := by
  induction depth generalizing named bindings with
  | zero => cases isFound
  | succ depth ih =>
      rcases exists_of_firstFound isFound with ⟨declared, isDeclared, answer⟩
      rcases linked.exists_erase isDeclared with ⟨raw, isClass, edge, erased⟩
      simp only [erased bindings] at answer
      split at answer
      · next isAncestor =>
        cases answer
        subst isAncestor
        exact ⟨supertypeClass?_apply bindings isClass, .step edge (.refl raw)⟩
      · rcases ih answer with ⟨namesAncestor, path⟩
        exact ⟨namesAncestor, .step edge path⟩

end Catalog

end NominalTypes
