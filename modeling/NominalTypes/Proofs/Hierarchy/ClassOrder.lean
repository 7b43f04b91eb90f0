import NominalTypes.Proofs.Hierarchy.Search

/-!
# The order of classes

Assignability is a preorder on the classes that a catalog knows, provided that `java.lang.Object` has
no supertypes of its own, and a partial order if besides no class is its own ancestor. Primitive
types are ordered by widening. A reference type is assignable to another one when, after the
dimensions of the target are taken off both, the target's element is `java.lang.Object` or an
ancestor of what remains of the source. What remains may still be an array type; all known array
types have the same ancestors.
-/

namespace NominalTypes

namespace ClassName

theorem strip_zero (named : ClassName) : named.strip 0 = named := rfl

theorem strip_dims (named : ClassName) : named.strip named.dims = named.element := by
  simp [strip, element, plain]

theorem strip_strip (named : ClassName) (first second : Nat) :
    (named.strip first).strip second = named.strip (first + second) := by
  simp [strip, Nat.sub_sub]

theorem component?_of_isArray {named : ClassName} (isArray : named.isArray = true) :
    named.component? = some (named.strip 1) :=
  if_neg (Nat.ne_of_gt (of_decide_eq_true isArray))

theorem component?_eq_none {named : ClassName} (plain : named.isArray = false) :
    named.component? = none :=
  if_pos (Nat.eq_zero_of_not_pos (of_decide_eq_false plain))

theorem eq_of_element_eq {left right : ClassName} (sameDims : left.dims = right.dims)
    (sameElement : left.element = right.element) : left = right := by
  rcases left with ⟨name, dims, fits⟩
  rcases right with ⟨otherName, otherDims, otherFits⟩
  cases sameDims
  cases sameElement
  rfl

theorem isArray_strip {named : ClassName} {dims : Nat} (more : dims < named.dims) :
    (named.strip dims).isArray = true :=
  decide_eq_true (Nat.sub_pos_of_lt more)

theorem asPrimitive?_of_isArray {named : ClassName} (isArray : named.isArray = true) :
    named.asPrimitive? = none := by
  have positive : 0 < named.dims := by simpa [ClassName.isArray] using isArray
  simp [asPrimitive?, Nat.ne_of_gt positive]

theorem isPrimitive_of_isArray {named : ClassName} (isArray : named.isArray = true) :
    named.isPrimitive = false := by
  simp [isPrimitive, asPrimitive?_of_isArray isArray]

theorem isPrimitive_eq_false_iff {named : ClassName} :
    named.isPrimitive = false ↔ named.asPrimitive? = none := by
  simp [isPrimitive]

theorem dims_of_asPrimitive? {named : ClassName} {primitive : Primitive}
    (isPrimitive : named.asPrimitive? = some primitive) : named.dims = 0 := by
  by_contra positive
  simp [asPrimitive?, positive] at isPrimitive

theorem eq_of_asPrimitive? {left right : ClassName} {primitive : Primitive}
    (isLeft : left.asPrimitive? = some primitive) (isRight : right.asPrimitive? = some primitive) :
    left = right := by
  have leftDims := dims_of_asPrimitive? isLeft
  have rightDims := dims_of_asPrimitive? isRight
  simp only [asPrimitive?, leftDims, rightDims, if_true] at isLeft isRight
  apply eq_of_element_eq (leftDims.trans rightDims.symm)
  have leftName := Primitive.keyword_of_ofKeyword? isLeft
  have rightName := Primitive.keyword_of_ofKeyword? isRight
  simp [element, ← leftName, ← rightName]

end ClassName

namespace Catalog

variable {catalog : Catalog}

theorem Reaches.eq_or_exists_extends {named ancestor : ClassName}
    (path : catalog.Reaches named ancestor) :
    named = ancestor ∨ ∃ last, catalog.Extends last ancestor := by
  cases path with
  | refl => exact Or.inl rfl
  | step edge rest => exact Or.inr (Reaches.exists_extends edge rest)

/-- No proper ancestor is an array class. -/
theorem HasLinkedSupertypes.isArray_of_reaches (linked : catalog.HasLinkedSupertypes)
    {named ancestor : ClassName} (path : catalog.Reaches named ancestor)
    (different : named ≠ ancestor) : ancestor.isArray = false := by
  rcases path.eq_or_exists_extends with same | ⟨last, edge⟩
  · exact absurd same different
  · exact linked.isArray_eq_false edge

/-- On acyclic catalogs no two classes are ancestors of each other. -/
theorem reaches_antisymm (acyclic : catalog.IsAcyclic) {left right : ClassName}
    (forward : catalog.Reaches left right) (backward : catalog.Reaches right left) :
    left = right := by
  cases forward with
  | refl => rfl
  | step edge rest => exact absurd (rest.trans backward) (acyclic left _ edge)

/-- A class without supertypes has no ancestor but itself. -/
theorem eq_of_reaches_of_supertypes {named ancestor : ClassName}
    (top : catalog.supertypes named = []) (path : catalog.Reaches named ancestor) :
    ancestor = named := by
  cases path with
  | refl => rfl
  | step edge rest =>
      simp [erasedSupertypes, top] at edge

/-- All known array types have the same supertypes. -/
theorem supertypes_of_isArray {left right : ClassName} (leftArray : left.isArray = true)
    (rightArray : right.isArray = true) (leftKnown : catalog.contains left = true)
    (rightKnown : catalog.contains right = true) :
    catalog.supertypes left = catalog.supertypes right := by
  simp [supertypes, superclass, interfaces, leftArray, rightArray, leftKnown, rightKnown]

theorem contains_of_extends_of_isArray {named supertype : ClassName}
    (isArray : named.isArray = true) (edge : catalog.Extends named supertype) :
    catalog.contains named = true := by
  by_contra unknown
  have none : catalog.supertypes named = [] := by
    simp [supertypes, superclass, interfaces, isArray, unknown]
  simp [Extends, erasedSupertypes, none] at edge

/-- What an array type reaches over at least one supertype, every known array type reaches. -/
theorem Reaches.of_isArray {left right ancestor : ClassName} (leftArray : left.isArray = true)
    (rightArray : right.isArray = true) (rightKnown : catalog.contains right = true)
    (path : catalog.Reaches left ancestor) (different : left ≠ ancestor) :
    catalog.Reaches right ancestor := by
  cases path with
  | refl => exact absurd rfl different
  | step edge rest =>
      have leftKnown := contains_of_extends_of_isArray leftArray edge
      refine .step ?_ rest
      rwa [erasedSupertypes, supertypes_of_isArray rightArray leftArray rightKnown leftKnown]

/--
The source is a reference type and the target one that accepts it: with the dimensions of the target
taken off both, the element of the target is `java.lang.Object` or an ancestor of the source.
-/
def AcceptsReference (self : Catalog) (target source : ClassName) : Prop :=
  target.dims ≤ source.dims ∧ target.element.isPrimitive = false ∧
    (source.strip target.dims).isPrimitive = false ∧
    (target.element = .object ∨ self.Reaches (source.strip target.dims) target.element)

/-- The classes are primitive types, and the source widens to the target. -/
def Widens (target source : ClassName) : Prop :=
  ∃ wide narrow, target.asPrimitive? = some wide ∧ source.asPrimitive? = some narrow ∧
    wide.widensFrom narrow = true

theorem elementAssignable_iff {target source : ClassName} :
    catalog.elementAssignable target source = true ↔
      target = .object ∨ catalog.Reaches source target := by
  simp [elementAssignable, ClassName.isObject, mem_ancestors_iff]

/-- Where not both classes are arrays, no dimensions are taken off. -/
theorem classAssignable_of_not_isArray {target source : ClassName} (different : target ≠ source)
    (notBoth : ¬(target.isArray = true ∧ source.isArray = true)) :
    catalog.classAssignable target source =
      match target.asPrimitive?, source.asPrimitive? with
      | some wide, some narrow => wide.widensFrom narrow
      | none, none => catalog.elementAssignable target source
      | _, _ => false := by
  have shared : min target.dims source.dims = 0 := by
    simp only [ClassName.isArray, decide_eq_true_eq] at notBoth
    omega
  simp only [classAssignable, if_neg different, shared, ClassName.strip_zero]
  rfl

/-- An array takes an array if its component takes the other one's, and neither is primitive. -/
theorem classAssignable_of_isArray {target source : ClassName} (different : target ≠ source)
    (targetArray : target.isArray = true) (sourceArray : source.isArray = true) :
    catalog.classAssignable target source =
      if (target.strip 1).isPrimitive || (source.strip 1).isPrimitive then false
      else catalog.classAssignable (target.strip 1) (source.strip 1) := by
  have components : target.strip 1 ≠ source.strip 1 := by
    intro same
    apply different
    apply Option.some.inj
    rw [← ClassName.arrayOf?_of_component? (ClassName.component?_of_isArray targetArray), same,
      ClassName.arrayOf?_of_component? (ClassName.component?_of_isArray sourceArray)]
  have positive : 0 < target.dims ∧ 0 < source.dims :=
    ⟨of_decide_eq_true targetArray, of_decide_eq_true sourceArray⟩
  rcases Nat.exists_eq_succ_of_ne_zero (Nat.ne_of_gt (Nat.lt_min.2 positive)) with ⟨rest, shared⟩
  have sharedRest : min (target.strip 1).dims (source.strip 1).dims = rest := by
    simp only [ClassName.strip]
    omega
  simp only [classAssignable, if_neg different, if_neg components, shared, sharedRest,
    ClassName.strip_strip, Nat.add_comm 1 rest, Nat.succ_eq_add_one]
  cases rest with
  | zero =>
      simp only [ClassName.isPrimitive]
      cases (target.strip 1).asPrimitive? <;> cases (source.strip 1).asPrimitive? <;> rfl
  | succ rest =>
      have targetMore : (target.strip 1).isArray = true := ClassName.isArray_strip (by omega)
      have sourceMore : (source.strip 1).isArray = true := ClassName.isArray_strip (by omega)
      rw [ClassName.isPrimitive_of_isArray targetMore, ClassName.isPrimitive_of_isArray sourceMore]
      rfl

/--
Assignability of classes, step by step: equal classes, primitive types by widening, everything
to `java.lang.Object`, arrays by their components, and other classes by ancestry.
-/
theorem classAssignable_eq (target source : ClassName) :
    catalog.classAssignable target source =
      if target = source then true
      else
        match target.asPrimitive?, source.asPrimitive? with
        | some wide, some narrow => wide.widensFrom narrow
        | some _, none | none, some _ => false
        | none, none =>
            if target.isObject then true
            else
              match target.component?, source.component? with
              | some component, some other =>
                  if component.isPrimitive || other.isPrimitive then false
                  else catalog.classAssignable component other
              | _, _ => decide (target ∈ catalog.ancestors source) := by
  by_cases same : target = source
  · simp [same, classAssignable]
  rw [if_neg same]
  by_cases arrays : target.isArray = true ∧ source.isArray = true
  · rcases arrays with ⟨targetArray, sourceArray⟩
    have notObject : target.isObject = false := by
      rw [ClassName.isObject, decide_eq_false_iff_not]
      rintro rfl
      cases targetArray
    simp only [classAssignable_of_isArray same targetArray sourceArray, notObject,
      ClassName.asPrimitive?_of_isArray targetArray, ClassName.asPrimitive?_of_isArray sourceArray,
      ClassName.component?_of_isArray targetArray, ClassName.component?_of_isArray sourceArray]
    rfl
  · rw [classAssignable_of_not_isArray same arrays]
    have byAncestry : catalog.elementAssignable target source =
        if target.isObject then true
        else
          match target.component?, source.component? with
          | some component, some other =>
              if component.isPrimitive || other.isPrimitive then false
              else catalog.classAssignable component other
          | _, _ => decide (target ∈ catalog.ancestors source) := by
      rcases not_and_or.1 arrays with plain | plain
      · rw [ClassName.component?_eq_none (eq_false_of_ne_true plain), elementAssignable]
        cases target.isObject <;> rfl
      · rw [ClassName.component?_eq_none (eq_false_of_ne_true plain), elementAssignable]
        cases target.isObject <;> cases target.component? <;> rfl
    cases target.asPrimitive? <;> cases source.asPrimitive? <;> first | rfl | exact byAncestry

/-- Where the target has no more dimensions, elements of the target's dimensions are compared. -/
theorem classAssignable_of_dims_le {target source : ClassName} (different : target ≠ source)
    (fewer : target.dims ≤ source.dims) :
    catalog.classAssignable target source = true ↔
      Widens target source ∨ catalog.AcceptsReference target source := by
  have shared : min target.dims source.dims = target.dims := Nat.min_eq_left fewer
  simp only [classAssignable, if_neg different, shared, ClassName.strip_dims, AcceptsReference,
    ClassName.isPrimitive_eq_false_iff, Widens]
  cases isTarget : target.element.asPrimitive? with
  | none =>
      have notTarget : target.asPrimitive? = none := by
        by_cases plain : target.dims = 0
        · rwa [ClassName.element_of_dims plain] at isTarget
        · exact ClassName.asPrimitive?_of_isArray (by simp [ClassName.isArray]; omega)
      cases isSource : (source.strip target.dims).asPrimitive? with
      | none => simp [elementAssignable_iff, fewer, notTarget]
      | some narrow => simp [notTarget]
  | some wide =>
      by_cases plain : target.dims = 0
      · rw [ClassName.element_of_dims plain] at isTarget
        simp only [plain, ClassName.strip_zero, isTarget]
        cases source.asPrimitive? <;> simp
      · have notTarget : target.asPrimitive? = none :=
          ClassName.asPrimitive?_of_isArray (by simp [ClassName.isArray]; omega)
        cases isSource : (source.strip target.dims).asPrimitive? <;> simp [notTarget, plain]

/-- No class with fewer dimensions is assignable, since no ancestor is an array class. -/
theorem HasLinkedSupertypes.classAssignable_of_lt (linked : catalog.HasLinkedSupertypes)
    {target source : ClassName} (more : source.dims < target.dims) :
    catalog.classAssignable target source = false := by
  have different : target ≠ source := by
    rintro rfl
    exact Nat.lt_irrefl _ more
  have shared : min target.dims source.dims = source.dims := Nat.min_eq_right (Nat.le_of_lt more)
  have isArray := ClassName.isArray_strip more
  simp only [classAssignable, if_neg different, shared, ClassName.strip_dims,
    ClassName.asPrimitive?_of_isArray isArray]
  cases isSource : source.element.asPrimitive? with
  | some narrow => rfl
  | none =>
      simp only [Bool.eq_false_iff, ne_eq, elementAssignable_iff, not_or]
      constructor
      · intro isObject
        rw [isObject] at isArray
        cases isArray
      · intro path
        have unlike : source.element ≠ target.strip source.dims := by
          intro same
          rw [← same] at isArray
          cases isArray
        rw [linked.isArray_of_reaches path unlike] at isArray
        cases isArray

/-- Classes are assignable when they are equal, by widening or as reference types. -/
theorem HasLinkedSupertypes.classAssignable_iff (linked : catalog.HasLinkedSupertypes)
    {target source : ClassName} :
    catalog.classAssignable target source = true ↔
      target = source ∨ Widens target source ∨ catalog.AcceptsReference target source := by
  by_cases same : target = source
  · simp [same, classAssignable]
  · rcases Nat.lt_or_ge source.dims target.dims with more | fewer
    · have notWidens : ¬Widens target source := by
        rintro ⟨wide, narrow, isWide, -⟩
        have plain := ClassName.dims_of_asPrimitive? isWide
        omega
      have notAccepts : ¬catalog.AcceptsReference target source := by
        rintro ⟨fewer, -⟩
        omega
      simp [linked.classAssignable_of_lt more, same, notWidens, notAccepts]
    · rw [classAssignable_of_dims_le same fewer]
      simp [same]

/-- A reference type that is reached from another one over supertypes is assignable from it. -/
theorem HasLinkedSupertypes.classAssignable_of_reaches (linked : catalog.HasLinkedSupertypes)
    {named ancestor : ClassName} (path : catalog.Reaches named ancestor)
    (namedReference : named.isPrimitive = false) (ancestorReference : ancestor.isPrimitive = false) :
    catalog.classAssignable ancestor named = true := by
  rw [linked.classAssignable_iff]
  by_cases same : named = ancestor
  · exact Or.inl same.symm
  · have plain : ancestor.dims = 0 := by
      simpa [ClassName.isArray] using linked.isArray_of_reaches path same
    refine Or.inr (Or.inr ⟨by omega, ?_, ?_, Or.inr ?_⟩)
    · rwa [ClassName.element_of_dims plain]
    · rwa [plain, ClassName.strip_zero]
    · rwa [plain, ClassName.strip_zero, ClassName.element_of_dims plain]

theorem Widens.trans {target middle source : ClassName} (outer : Widens target middle)
    (inner : Widens middle source) : Widens target source := by
  rcases outer with ⟨wide, between, isWide, isBetween, outer⟩
  rcases inner with ⟨other, narrow, isOther, isNarrow, inner⟩
  rw [isBetween] at isOther
  cases isOther
  exact ⟨wide, narrow, isWide, isNarrow, Primitive.widensFrom_trans outer inner⟩

/-- No reference type widens, on either side of a primitive type. -/
theorem AcceptsReference.not_widens_source {target middle source : ClassName}
    (outer : catalog.AcceptsReference target middle) : ¬Widens middle source := by
  rintro ⟨wide, narrow, isWide, -⟩
  rcases outer with ⟨fewer, -, reference, -⟩
  have plain : target.dims = 0 := by
    have middlePlain := ClassName.dims_of_asPrimitive? isWide
    omega
  rw [plain, ClassName.strip_zero, ClassName.isPrimitive_eq_false_iff, isWide] at reference
  cases reference

theorem AcceptsReference.not_widens_target {target middle source : ClassName}
    (inner : catalog.AcceptsReference middle source) : ¬Widens target middle := by
  rintro ⟨wide, narrow, -, isNarrow, -⟩
  rcases inner with ⟨-, reference, -⟩
  rw [ClassName.element_of_dims (ClassName.dims_of_asPrimitive? isNarrow),
    ClassName.isPrimitive_eq_false_iff, isNarrow] at reference
  cases reference

/--
References are accepted in two steps as in one. If the first target has fewer dimensions, what
remains of the middle class and of the source are array types with common ancestors.
-/
theorem AcceptsReference.trans {target middle source : ClassName}
    (top : catalog.supertypes .object = []) (known : catalog.contains source = true)
    (outer : catalog.AcceptsReference target middle)
    (inner : catalog.AcceptsReference middle source) :
    catalog.AcceptsReference target source := by
  rcases outer with ⟨outerFewer, outerTarget, outerSource, outer⟩
  rcases inner with ⟨innerFewer, innerTarget, innerSource, inner⟩
  refine ⟨Nat.le_trans outerFewer innerFewer, outerTarget, ?_⟩
  rcases Nat.eq_or_lt_of_le outerFewer with sameDims | fewer
  · rw [sameDims]
    refine ⟨innerSource, ?_⟩
    rw [sameDims, ClassName.strip_dims] at outer
    rcases outer with isObject | outer
    · exact Or.inl isObject
    · rcases inner with isObject | inner
      · rw [isObject] at outer
        exact Or.inl (eq_of_reaches_of_supertypes top outer)
      · exact Or.inr (inner.trans outer)
  · have middleArray := ClassName.isArray_strip fewer
    have sourceArray := ClassName.isArray_strip (Nat.lt_of_lt_of_le fewer innerFewer)
    refine ⟨ClassName.isPrimitive_of_isArray sourceArray, ?_⟩
    rcases outer with isObject | outer
    · exact Or.inl isObject
    · have unlike : middle.strip target.dims ≠ target.element := by
        intro same
        rw [same] at middleArray
        cases middleArray
      exact Or.inr (outer.of_isArray middleArray sourceArray known unlike)

/-- On acyclic catalogs no two reference types accept each other. -/
theorem AcceptsReference.antisymm {left right : ClassName} (acyclic : catalog.IsAcyclic)
    (top : catalog.supertypes .object = []) (forward : catalog.AcceptsReference left right)
    (backward : catalog.AcceptsReference right left) : left = right := by
  rcases forward with ⟨leftFewer, -, -, forward⟩
  rcases backward with ⟨rightFewer, -, -, backward⟩
  have sameDims : left.dims = right.dims := Nat.le_antisymm leftFewer rightFewer
  rw [sameDims, ClassName.strip_dims] at forward
  rw [← sameDims, ClassName.strip_dims] at backward
  apply ClassName.eq_of_element_eq sameDims
  rcases forward with leftObject | forward
  · rcases backward with rightObject | backward
    · rw [leftObject, rightObject]
    · rw [leftObject] at backward ⊢
      exact (eq_of_reaches_of_supertypes top backward).symm
  · rcases backward with rightObject | backward
    · rw [rightObject] at forward ⊢
      exact eq_of_reaches_of_supertypes top forward
    · exact (reaches_antisymm acyclic forward backward).symm

theorem Widens.antisymm {left right : ClassName} (forward : Widens left right)
    (backward : Widens right left) : left = right := by
  rcases forward with ⟨wide, narrow, isWide, isNarrow, forward⟩
  rcases backward with ⟨otherWide, otherNarrow, isOtherWide, isOtherNarrow, backward⟩
  rw [isNarrow] at isOtherWide
  rw [isWide] at isOtherNarrow
  cases isOtherWide
  cases isOtherNarrow
  rw [Primitive.widensFrom_antisymm forward backward] at isWide
  exact ClassName.eq_of_asPrimitive? isWide isNarrow

/--
Assignability is a preorder on the known classes of a loaded catalog, of cyclic ones as well, and on
acyclic ones a partial order.
-/
theorem classAssignable_isOrder (loaded : catalog.IsLoaded)
    (top : catalog.supertypes .object = []) :
    (∀ named, catalog.contains named = true → catalog.classAssignable named named = true) ∧
      (∀ target middle source, catalog.contains target = true → catalog.contains middle = true →
        catalog.contains source = true → catalog.classAssignable target middle = true →
          catalog.classAssignable middle source = true →
            catalog.classAssignable target source = true) ∧
      (catalog.IsAcyclic → ∀ left right, catalog.contains left = true →
        catalog.contains right = true → catalog.classAssignable left right = true →
          catalog.classAssignable right left = true → left = right) := by
  have linked := loaded.hasLinkedSupertypes
  refine ⟨?_, ?_, ?_⟩
  · intro named _
    exact linked.classAssignable_iff.2 (Or.inl rfl)
  · intro target middle source _ _ known outer inner
    rw [linked.classAssignable_iff] at outer inner ⊢
    rcases outer with rfl | outer | outer
    · exact inner
    · rcases inner with rfl | inner | inner
      · exact Or.inr (Or.inl outer)
      · exact Or.inr (Or.inl (outer.trans inner))
      · exact absurd outer inner.not_widens_target
    · rcases inner with rfl | inner | inner
      · exact Or.inr (Or.inr outer)
      · exact absurd inner outer.not_widens_source
      · exact Or.inr (Or.inr (outer.trans top known inner))
  · intro acyclic left right _ _ forward backward
    rw [linked.classAssignable_iff] at forward backward
    rcases forward with same | forward | forward
    · exact same
    · rcases backward with same | backward | backward
      · exact same.symm
      · exact forward.antisymm backward
      · exact absurd forward backward.not_widens_target
    · rcases backward with same | backward | backward
      · exact same.symm
      · exact absurd backward forward.not_widens_source
      · exact forward.antisymm acyclic top backward

/-- Classes with an interface of arrays among their ancestors. -/
def shapeDocument : Document where
  classes := [
    { name := "java.lang.Object" },
    { name := "java.lang.Cloneable", kind := .interface },
    { name := "a.Shape", kind := .interface, typeParameters := [{ name := "T" }],
      interfaces := ["Cloneable"] },
    { name := "a.Circle", interfaces := ["Shape<int[]>"] }]

/-- The catalog of these classes. -/
def shapes : Catalog := (Catalog.empty.extend shapeDocument).toOption.getD .empty

theorem isLoaded_shapes : shapes.IsLoaded := isLoaded_getD shapeDocument

theorem isAcyclic_shapes : shapes.IsAcyclic := by
  rw [isLoaded_shapes.hasLinkedSupertypes.isAcyclic_iff]
  decide +kernel

/-- An array of cloneable values takes arrays of arrays, by the order over arrays of shapes. -/
theorem classAssignable_cloneables_circles :
    shapes.supertypes .object = [] ∧ shapes.IsAcyclic ∧
      shapes.classAssignable ⟨"java.lang.Cloneable", 1, by decide⟩ ⟨"a.Circle", 2, by decide⟩ =
        true ∧
      ClassName.plain "a.Shape" ≠ .plain "a.Circle" ∧
      shapes.classAssignable (.plain "a.Circle") (.plain "a.Shape") = false := by
  have top : shapes.supertypes .object = [] := by decide +kernel
  rcases classAssignable_isOrder isLoaded_shapes top with ⟨-, transitive, antisymmetric⟩
  have different : ClassName.plain "a.Shape" ≠ .plain "a.Circle" := by decide
  refine ⟨top, isAcyclic_shapes, ?_, different, ?_⟩
  · exact transitive ⟨"java.lang.Cloneable", 1, by decide⟩ ⟨"a.Shape", 2, by decide⟩
      ⟨"a.Circle", 2, by decide⟩ (by decide +kernel) (by decide +kernel) (by decide +kernel)
      (by decide +kernel) (by decide +kernel)
  · rw [Bool.eq_false_iff]
    intro backward
    exact different (antisymmetric isAcyclic_shapes (.plain "a.Shape") (.plain "a.Circle")
      (by decide +kernel) (by decide +kernel) (by decide +kernel) backward)

end Catalog

end NominalTypes
