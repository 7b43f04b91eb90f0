import NominalTypes.Grammar.Parser

/-!
# How printed types are put together

The text of an array type is the text of its component with brackets behind it, whether the array
is nominal or not. In the qualified style the text of a class is its binary name, for a primitive
type as well, since that is named by its keyword. The text depends on the style only through the
names of the classes that are written.
-/

namespace NominalTypes

theorem arraySuffix_succ (dims : Nat) : arraySuffix (dims + 1) = arraySuffix dims ++ "[]" := by
  induction dims with
  | zero => rfl
  | succ dims ih =>
      calc arraySuffix (dims + 1 + 1)
          = "[]" ++ arraySuffix (dims + 1) := rfl
        _ = "[]" ++ (arraySuffix dims ++ "[]") := by rw [ih]
        _ = arraySuffix (dims + 1) ++ "[]" := by rw [← String.append_assoc]; rfl

namespace Ty

/-- An array is written as its component with a suffix behind it. -/
theorem renderPart_arrayOf (style : NameStyle) (component : Ty) :
    (arrayOf component).renderPart style = component.renderPart style ++ "[]" := by
  cases component with
  | array | parameterized | var | wildcard => rfl
  | nominal named =>
      by_cases room : named.dims < 255
      · simp only [arrayOf, ClassName.arrayOf?, room, dif_pos, renderPart, NameStyle.renderClass,
          arraySuffix_succ, String.append_assoc]
        rfl
      · simp [arrayOf, ClassName.arrayOf?, room, renderPart]

theorem renderPart_arrayOfTimes (style : NameStyle) (dims : Nat) (component : Ty) :
    (arrayOfTimes dims component).renderPart style =
      component.renderPart style ++ arraySuffix dims := by
  induction dims generalizing component with
  | zero => simp [arrayOfTimes, arraySuffix]
  | succ dims ih =>
      rw [arrayOfTimes, ih, renderPart_arrayOf, String.append_assoc]
      rfl

theorem isDefaultBounds_iff {bounds : List Ty} : isDefaultBounds bounds = true ↔ bounds = [object] := by
  constructor
  · intro isDefault
    simp only [isDefaultBounds] at isDefault
    split at isDefault
    · next only =>
      cases only with
      | nominal named =>
          have isObject : named = .object := by
            simpa [Ty.isObject, ClassName.isObject] using isDefault
          rw [isObject]
          rfl
      | array | parameterized | var | wildcard => cases isDefault
    · cases isDefault
  · rintro rfl
    rfl

end Ty

theorem NameStyle.renderClass_qualified (named : ClassName) :
    qualified.renderClass named = named.name ++ arraySuffix named.dims := by
  simp only [renderClass]
  split
  · next primitive isPrimitive =>
    have isKeyword : primitive.keyword = named.name :=
      Primitive.keyword_of_ofKeyword? isPrimitive
    rw [isKeyword]
  · rfl

/-- The class that a style writes for the class: its element, unless that is a primitive type. -/
def ClassName.styled (self : ClassName) : List ClassName :=
  if self.element.isPrimitive then [] else [self.element]

namespace Ty

mutual

/-- The classes in an expression whose names are written in the style, in order. -/
def styledClasses : Ty → List ClassName
  | .nominal named => named.styled
  | .array component => component.styledClasses
  | .parameterized owner raw arguments =>
      (styledOwner owner).getD raw.styled ++ styledAll arguments
  | .var _ => []
  | .wildcard upper lower =>
      (if isDefaultBounds upper then [] else styledAll upper) ++ styledAll lower
termination_by structural ty => ty

/-- The classes in an owner that is written. -/
def styledOwner : Option Ty → Option (List ClassName)
  | none => none
  | some owner => if owner.isParameterized then some owner.styledClasses else none
termination_by structural owner => owner

/-- The classes in the expressions one after the other. -/
def styledAll : List Ty → List ClassName
  | [] => []
  | part :: parts => part.styledClasses ++ styledAll parts
termination_by structural parts => parts

end

theorem mem_styledAll {parts : List Ty} {named : ClassName} :
    named ∈ styledAll parts ↔ ∃ part ∈ parts, named ∈ part.styledClasses := by
  induction parts with
  | nil => simp [styledAll]
  | cons part parts ih => simp [styledAll, ih]

theorem styledClasses_arrayOf (component : Ty) :
    (arrayOf component).styledClasses = component.styledClasses := by
  cases component with
  | array | parameterized | var | wildcard => rfl
  | nominal named =>
      by_cases room : named.dims < 255
      · simp only [arrayOf, ClassName.arrayOf?, room, dif_pos]
        rfl
      · simp only [arrayOf, ClassName.arrayOf?, room, dif_neg, not_false_iff]
        rfl

theorem styledClasses_arrayOfTimes (dims : Nat) (component : Ty) :
    (arrayOfTimes dims component).styledClasses = component.styledClasses := by
  induction dims generalizing component with
  | zero => rfl
  | succ dims ih => rw [arrayOfTimes, ih, styledClasses_arrayOf]

section

variable {style other : NameStyle}

/-- Styles that agree on the class that is written write a class alike. -/
theorem renderClass_congr {named : ClassName}
    (same : ∀ written ∈ named.styled, style written = other written) :
    style.renderClass named = other.renderClass named := by
  cases isPrimitive : named.element.asPrimitive? with
  | some primitive => simp only [NameStyle.renderClass, isPrimitive]
  | none =>
      have isStyled : named.element ∈ named.styled := by
        simp [ClassName.styled, ClassName.isPrimitive, isPrimitive]
      simp only [NameStyle.renderClass, isPrimitive, same _ isStyled]

theorem renderParts_congr {parts : List Ty}
    (each : ∀ part ∈ parts, (∀ named ∈ part.styledClasses, style named = other named) →
      part.renderPart style = part.renderPart other)
    (same : ∀ named ∈ styledAll parts, style named = other named) :
    renderParts style parts = renderParts other parts := by
  rw [renderParts_eq_map, renderParts_eq_map]
  apply List.map_congr_left
  intro part isPart
  apply each part isPart
  intro named isStyled
  exact same named (mem_styledAll.2 ⟨part, isPart, isStyled⟩)

/-- Two styles that write the same names for the classes in question write the same text. -/
theorem renderPart_congr {ty : Ty} (same : ∀ named ∈ ty.styledClasses, style named = other named) :
    ty.renderPart style = ty.renderPart other := by
  induction ty using Ty.induct with
  | nominal named => exact renderClass_congr same
  | array component ih => rw [renderPart, renderPart, ih same]
  | parameterized owner raw arguments ownerIh argumentsIh =>
      simp only [styledClasses, List.forall_mem_append] at same
      rcases same with ⟨sameHead, sameArguments⟩
      have unwritten : styledOwner owner = none → style.renderClass raw = other.renderClass raw := by
        intro none
        rw [none] at sameHead
        exact renderClass_congr sameHead
      simp only [renderPart, renderParts_congr argumentsIh sameArguments]
      cases owner with
      | none => simp only [renderOwner, unwritten rfl]
      | some owner =>
          cases isWritten : owner.isParameterized with
          | false =>
              have none : styledOwner (some owner) = none := by simp [styledOwner, isWritten]
              simp only [renderOwner, isWritten, unwritten none, Bool.false_eq_true, if_false]
          | true =>
              simp only [styledOwner, isWritten, if_true, Option.getD_some] at sameHead
              simp only [renderOwner, isWritten, if_true, ownerIh owner rfl sameHead]
  | var parameter => rfl
  | wildcard upper lower upperIh lowerIh =>
      simp only [styledClasses, List.forall_mem_append] at same
      rcases same with ⟨sameUpper, sameLower⟩
      simp only [renderPart, renderParts_congr lowerIh sameLower]
      cases isDefault : isDefaultBounds upper with
      | true => rfl
      | false =>
          simp only [isDefault, Bool.false_eq_true, if_false] at sameUpper
          simp only [Bool.false_eq_true, if_false, renderParts_congr upperIh sameUpper]

end

end Ty

end NominalTypes
