import NominalTypes.Grammar.Parser
import NominalTypes.Ty.Parts
import NominalTypes.Ty.Traversal

/-!
# Canonical expressions and occurrences of variables

What holds of all parts of an expression is divided among its components: an expression is
canonical when its own form is and its components are, and a variable or a class occurs in it when
it occurs in one of them. Building an array type keeps these.
-/

namespace NominalTypes

namespace Ty

theorem mem_partsOwner {part : Ty} {owner : Option Ty} :
    part ∈ partsOwner owner ↔ ∃ ty ∈ owner, part ∈ ty.parts := by
  cases owner <;> simp [partsOwner]

theorem forall_partsOwner {property : Ty → Prop} {owner : Option Ty} :
    (∀ part ∈ partsOwner owner, property part) ↔ ∀ ty ∈ owner, ∀ part ∈ ty.parts, property part := by
  cases owner <;> simp [partsOwner]

theorem forall_partsAll {property : Ty → Prop} {list : List Ty} :
    (∀ part ∈ partsAll list, property part) ↔ ∀ ty ∈ list, ∀ part ∈ ty.parts, property part := by
  constructor
  · intro holds ty isItem part isPart
    exact holds part (mem_partsAll.2 ⟨ty, isItem, isPart⟩)
  · intro holds part isPart
    rcases mem_partsAll.1 isPart with ⟨ty, isItem, isPart⟩
    exact holds ty isItem part isPart

theorem forall_parts_parameterized {property : Ty → Prop} {owner : Option Ty} {raw : ClassName}
    {arguments : List Ty} :
    (∀ part ∈ (parameterized owner raw arguments).parts, property part) ↔
      property (.parameterized owner raw arguments) ∧
        (∀ ty ∈ owner, ∀ part ∈ ty.parts, property part) ∧
        ∀ argument ∈ arguments, ∀ part ∈ argument.parts, property part := by
  simp only [parts, List.forall_mem_cons, List.forall_mem_append, forall_partsOwner,
    forall_partsAll]

theorem forall_parts_wildcard {property : Ty → Prop} {upper lower : List Ty} :
    (∀ part ∈ (wildcard upper lower).parts, property part) ↔
      property (.wildcard upper lower) ∧
        (∀ bound ∈ upper, ∀ part ∈ bound.parts, property part) ∧
        ∀ bound ∈ lower, ∀ part ∈ bound.parts, property part := by
  simp only [parts, List.forall_mem_cons, List.forall_mem_append, forall_partsAll]

theorem parts_sublist_partsAll {ty : Ty} {list : List Ty} (member : ty ∈ list) :
    ty.parts.Sublist (partsAll list) := by
  induction list with
  | nil => cases member
  | cons first rest ih =>
      rcases List.mem_cons.1 member with rfl | later
      · exact List.sublist_append_left _ _
      · exact (ih later).trans (List.sublist_append_right _ _)

/-- The parts of a part are among the parts of the whole, in the same order. -/
theorem parts_sublist {part ty : Ty} (isPart : part ∈ ty.parts) :
    part.parts.Sublist ty.parts := by
  induction ty using induct with
  | nominal | var =>
      cases List.mem_singleton.1 isPart
      exact List.Sublist.refl _
  | array component ih =>
      rcases List.mem_cons.1 isPart with rfl | inComponent
      · exact List.Sublist.refl _
      · exact (ih inComponent).cons _
  | parameterized owner raw arguments ownerIh argumentsIh =>
      rcases List.mem_cons.1 isPart with rfl | inner
      · exact List.Sublist.refl _
      · apply List.Sublist.cons
        rcases List.mem_append.1 inner with inOwner | inArguments
        · rcases mem_partsOwner.1 inOwner with ⟨ty, rfl, within⟩
          exact (ownerIh ty rfl within).trans (List.sublist_append_left _ _)
        · rcases mem_partsAll.1 inArguments with ⟨ty, isArgument, within⟩
          exact (argumentsIh ty isArgument within).trans
            ((parts_sublist_partsAll isArgument).trans (List.sublist_append_right _ _))
  | wildcard upper lower upperIh lowerIh =>
      rcases List.mem_cons.1 isPart with rfl | inner
      · exact List.Sublist.refl _
      · apply List.Sublist.cons
        rcases List.mem_append.1 inner with inUpper | inLower
        · rcases mem_partsAll.1 inUpper with ⟨ty, isBound, within⟩
          exact (upperIh ty isBound within).trans
            ((parts_sublist_partsAll isBound).trans (List.sublist_append_left _ _))
        · rcases mem_partsAll.1 inLower with ⟨ty, isBound, within⟩
          exact (lowerIh ty isBound within).trans
            ((parts_sublist_partsAll isBound).trans (List.sublist_append_right _ _))

theorem mem_parts_trans {first second third : Ty} (inner : first ∈ second.parts)
    (outer : second ∈ third.parts) : first ∈ third.parts :=
  (parts_sublist outer).subset inner

theorem mem_parts_of_argument {owner : Option Ty} {raw : ClassName} {arguments : List Ty}
    {argument : Ty} (isArgument : argument ∈ arguments) :
    argument ∈ (parameterized owner raw arguments).parts := by
  apply List.mem_cons_of_mem
  apply List.mem_append_right
  exact mem_partsAll.2 ⟨argument, isArgument, argument.mem_parts_self⟩

theorem mem_parts_of_bound {upper lower : List Ty} {bound : Ty}
    (isBound : bound ∈ upper ++ lower) : bound ∈ (wildcard upper lower).parts := by
  apply List.mem_cons_of_mem
  rcases List.mem_append.1 isBound with isUpper | isLower
  · exact List.mem_append_left _ (mem_partsAll.2 ⟨bound, isUpper, bound.mem_parts_self⟩)
  · exact List.mem_append_right _ (mem_partsAll.2 ⟨bound, isLower, bound.mem_parts_self⟩)

theorem length_partsAll_of {list : List Ty} (each : ∀ ty ∈ list, ty.parts.length = ty.size) :
    (partsAll list).length = sizeList list := by
  induction list with
  | nil => rfl
  | cons ty rest ih =>
      rcases List.forall_mem_cons.1 each with ⟨isFirst, others⟩
      simp only [partsAll, sizeList, List.length_append, isFirst, ih others]

/-- An expression has as many parts as its size says. -/
theorem length_parts (self : Ty) : self.parts.length = self.size := by
  induction self using induct with
  | nominal | var => rfl
  | array component ih => simp [parts, size, ih]
  | parameterized owner raw arguments ownerIh argumentsIh =>
      have ownerLength : (partsOwner owner).length = sizeOption owner := by
        cases owner with
        | none => rfl
        | some ty => exact ownerIh ty rfl
      simp [parts, size, ownerLength, length_partsAll_of argumentsIh]
  | wildcard upper lower upperIh lowerIh =>
      simp [parts, size, length_partsAll_of upperIh, length_partsAll_of lowerIh]

theorem length_partsAll (list : List Ty) : (partsAll list).length = sizeList list :=
  length_partsAll_of fun ty _ => ty.length_parts

theorem size_le_of_mem_parts {part ty : Ty} (isPart : part ∈ ty.parts) : part.size ≤ ty.size := by
  rw [← length_parts, ← length_parts]
  exact (parts_sublist isPart).length_le

theorem size_le_sizeList {ty : Ty} {list : List Ty} (member : ty ∈ list) :
    ty.size ≤ sizeList list := by
  rw [← length_parts, ← length_partsAll]
  exact (parts_sublist_partsAll member).length_le

@[simp] theorem isCanonical_nominal (named : ClassName) : (nominal named).IsCanonical := by
  simp [IsCanonical, parts, HasCanonicalForm]

@[simp] theorem isCanonical_var (parameter : TypeVariable) : (var parameter).IsCanonical := by
  simp [IsCanonical, parts, HasCanonicalForm]

theorem isCanonical_array {component : Ty} :
    (array component).IsCanonical ↔
      (array component).HasCanonicalForm ∧ component.IsCanonical := by
  simp only [IsCanonical, parts, List.forall_mem_cons]

theorem isCanonical_parameterized {owner : Option Ty} {raw : ClassName} {arguments : List Ty} :
    (parameterized owner raw arguments).IsCanonical ↔
      (∀ ty ∈ owner, ty.IsCanonical) ∧ ∀ argument ∈ arguments, argument.IsCanonical := by
  simp only [IsCanonical, forall_parts_parameterized, HasCanonicalForm, true_and]

theorem isCanonical_wildcard {upper lower : List Ty} :
    (wildcard upper lower).IsCanonical ↔
      (∀ bound ∈ upper, bound.IsCanonical) ∧ ∀ bound ∈ lower, bound.IsCanonical := by
  simp only [IsCanonical, forall_parts_wildcard, HasCanonicalForm, true_and]

theorem arrayOf_eq_array {component : Ty} (canonical : (array component).HasCanonicalForm) :
    arrayOf component = array component := by
  cases component with
  | array | parameterized | var | wildcard => rfl
  | nominal named =>
      have full : named.dims = 255 := canonical
      simp [arrayOf, ClassName.arrayOf?, full]

/-- The array over a class is an array class, as long as there is room for its dimensions. -/
theorem arrayOf_nominal (named : ClassName) :
    (∃ arrayClass, arrayOf (nominal named) = nominal arrayClass) ∨
      arrayOf (nominal named) = array (nominal named) := by
  cases built : named.arrayOf? with
  | some arrayClass => exact Or.inl ⟨arrayClass, by simp [arrayOf, built]⟩
  | none => exact Or.inr (by simp [arrayOf, built])

/-- An array built over a canonical type is canonical. -/
theorem arrayOf_isCanonical {component : Ty} (canonical : component.IsCanonical) :
    (arrayOf component).IsCanonical := by
  have form := arrayOf_hasCanonicalForm component
  cases component with
  | array | parameterized | var | wildcard => exact isCanonical_array.2 ⟨trivial, canonical⟩
  | nominal named =>
      rcases arrayOf_nominal named with ⟨arrayClass, isClass⟩ | isArray
      · rw [isClass]
        exact isCanonical_nominal arrayClass
      · rw [isArray] at form ⊢
        exact isCanonical_array.2 ⟨form, canonical⟩

theorem arrayOfTimes_isCanonical {component : Ty} (canonical : component.IsCanonical)
    (dims : Nat) : (arrayOfTimes dims component).IsCanonical := by
  induction dims generalizing component with
  | zero => exact canonical
  | succ dims ih => exact ih (arrayOf_isCanonical canonical)

/-- Bounds with their default are canonical if the bounds are. -/
theorem boundsOrObject_isCanonical {bounds : List Ty}
    (canonical : ∀ bound ∈ bounds, bound.IsCanonical) :
    ∀ bound ∈ boundsOrObject bounds, bound.IsCanonical := by
  cases bounds with
  | nil => simp [boundsOrObject, object]
  | cons first rest => exact canonical

theorem isArray_arrayOf (component : Ty) : (arrayOf component).isArray = true := by
  cases component with
  | array | parameterized | var | wildcard => rfl
  | nominal named =>
      by_cases room : named.dims < 255
      · simp [arrayOf, ClassName.arrayOf?, room, isArray, ClassName.isArray]
      · simp [arrayOf, ClassName.arrayOf?, room, isArray]

/-- The parts of an array type are array types or parts of its component. -/
theorem mem_parts_arrayOf {part component : Ty} (isPart : part ∈ (arrayOf component).parts) :
    part.isArray = true ∨ part ∈ component.parts := by
  have whole := isArray_arrayOf component
  cases component with
  | array | parameterized | var | wildcard =>
      rcases List.mem_cons.1 isPart with rfl | isPart
      · exact Or.inl rfl
      · exact Or.inr isPart
  | nominal named =>
      rcases arrayOf_nominal named with ⟨arrayClass, isClass⟩ | isArray
      · rw [isClass] at isPart whole
        cases List.mem_singleton.1 isPart
        exact Or.inl whole
      · rw [isArray] at isPart
        rcases List.mem_cons.1 isPart with rfl | isPart
        · exact Or.inl rfl
        · exact Or.inr isPart

theorem mem_parts_arrayOfTimes {part component : Ty} {dims : Nat}
    (isPart : part ∈ (arrayOfTimes dims component).parts) :
    part.isArray = true ∨ part ∈ component.parts := by
  induction dims generalizing component with
  | zero => exact Or.inr isPart
  | succ dims ih =>
      rcases ih isPart with isArray | isPart
      · exact Or.inl isArray
      · exact mem_parts_arrayOf isPart

theorem mem_occurrencesOwner {parameter : TypeVariable} {owner : Option Ty} :
    parameter ∈ occurrencesOwner owner ↔ ∃ ty ∈ owner, parameter ∈ ty.occurrences := by
  cases owner <;> simp [occurrencesOwner]

theorem mem_occurrencesAll {parameter : TypeVariable} {list : List Ty} :
    parameter ∈ occurrencesAll list ↔ ∃ ty ∈ list, parameter ∈ ty.occurrences := by
  induction list with
  | nil => simp [occurrencesAll]
  | cons ty rest ih => simp [occurrencesAll, ih]

theorem forall_occurrences_parameterized {property : TypeVariable → Prop} {owner : Option Ty}
    {raw : ClassName} {arguments : List Ty} :
    (∀ parameter ∈ (parameterized owner raw arguments).occurrences, property parameter) ↔
      (∀ ty ∈ owner, ∀ parameter ∈ ty.occurrences, property parameter) ∧
        ∀ argument ∈ arguments, ∀ parameter ∈ argument.occurrences, property parameter := by
  simp only [occurrences, List.forall_mem_append, mem_occurrencesOwner, mem_occurrencesAll]
  grind

theorem forall_occurrences_wildcard {property : TypeVariable → Prop} {upper lower : List Ty} :
    (∀ parameter ∈ (wildcard upper lower).occurrences, property parameter) ↔
      (∀ bound ∈ upper, ∀ parameter ∈ bound.occurrences, property parameter) ∧
        ∀ bound ∈ lower, ∀ parameter ∈ bound.occurrences, property parameter := by
  simp only [occurrences, List.forall_mem_append, mem_occurrencesAll]
  grind

/-- An array has the variables of its component. -/
theorem occurrences_arrayOf (component : Ty) :
    (arrayOf component).occurrences = component.occurrences := by
  cases component with
  | array | parameterized | var | wildcard => rfl
  | nominal named =>
      rcases arrayOf_nominal named with ⟨arrayClass, isClass⟩ | isArray
      · rw [isClass]
        rfl
      · rw [isArray]
        rfl

theorem occurrences_arrayOfTimes (dims : Nat) (component : Ty) :
    (arrayOfTimes dims component).occurrences = component.occurrences := by
  induction dims generalizing component with
  | zero => rfl
  | succ dims ih => rw [arrayOfTimes, ih, occurrences_arrayOf]

theorem occurrencesAll_boundsOrObject (bounds : List Ty) :
    occurrencesAll (boundsOrObject bounds) = occurrencesAll bounds := by
  cases bounds with
  | nil => rfl
  | cons first rest => rfl

theorem mem_classesOwner {named : ClassName} {owner : Option Ty} :
    named ∈ classesOwner owner ↔ ∃ ty ∈ owner, named ∈ ty.classes := by
  cases owner <;> simp [classesOwner]

theorem mem_classesAll {named : ClassName} {list : List Ty} :
    named ∈ classesAll list ↔ ∃ ty ∈ list, named ∈ ty.classes := by
  induction list with
  | nil => simp [classesAll]
  | cons ty rest ih => simp [classesAll, ih]

end Ty

end NominalTypes
