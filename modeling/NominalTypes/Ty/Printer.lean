import NominalTypes.Ty.Basic

/-!
# Printing type expressions

The printed form of a type expression is type text. How the name of a class is written is left to
a name style; array dimensions, argument lists and bounds are fixed. A primitive type is always
written by its keyword. The bounds of a type variable are written only where the variable is the
whole expression, since a variable in an argument list stands for itself.
-/

namespace NominalTypes

/-- How the name of a class without dimensions is written. -/
abbrev NameStyle := ClassName → String

namespace NameStyle

/-- Binary names, as in `java.util.Map$Entry`. -/
def qualified : NameStyle := ClassName.name

/-- Trailing segments only, as in `Entry`. -/
def unqualified : NameStyle := ClassName.simpleName

/-- The class in the given style, with its dimensions; a primitive type by its keyword. -/
def renderClass (style : NameStyle) (named : ClassName) : String :=
  (match named.element.asPrimitive? with
    | some primitive => primitive.keyword
    | none => style named.element) ++ arraySuffix named.dims

end NameStyle

namespace Ty

/-- The expression is a generic class applied to arguments. -/
def isParameterized : Ty → Bool
  | .parameterized _ _ _ => true
  | _ => false

mutual

/-- The text of an expression that stands inside another one. -/
def renderPart (style : NameStyle) : Ty → String
  | .nominal named => style.renderClass named
  | .array component => component.renderPart style ++ "[]"
  | .parameterized owner raw arguments =>
      (match renderOwner style owner with
        | some ownerText => ownerText ++ "." ++ raw.simpleName
        | none => style.renderClass raw) ++
      "<" ++ String.intercalate ", " (renderParts style arguments) ++ ">"
  | .var parameter => parameter.name
  | .wildcard upper lower =>
      "?" ++
      (if isDefaultBounds upper then ""
        else " extends " ++ String.intercalate " & " (renderParts style upper)) ++
      (if lower.isEmpty then ""
        else " super " ++ String.intercalate " & " (renderParts style lower))
termination_by structural ty => ty

/-- The text of an owner that is written: one with type arguments of its own. -/
def renderOwner (style : NameStyle) : Option Ty → Option String
  | none => none
  | some owner => if owner.isParameterized then some (owner.renderPart style) else none
termination_by structural owner => owner

/-- The texts of the expressions in order. -/
def renderParts (style : NameStyle) : List Ty → List String
  | [] => []
  | part :: parts => part.renderPart style :: renderParts style parts
termination_by structural parts => parts

end

/-- The text of an expression in the given style, a variable with its declared bounds. -/
def renderWith (style : NameStyle) : Ty → String
  | .var parameter =>
      parameter.name ++
      (if parameter.hasDefaultBounds then ""
        else " extends " ++ String.intercalate " & " (renderParts style parameter.bounds))
  | ty => ty.renderPart style

/-- The text of an expression with binary names. -/
def render (self : Ty) : String := self.renderWith .qualified

theorem renderParts_eq_map (style : NameStyle) (parts : List Ty) :
    renderParts style parts = parts.map (renderPart style) := by
  induction parts with
  | nil => rfl
  | cons part parts ih => simp [renderParts, ih]

theorem renderWith_eq_renderPart {style : NameStyle} {ty : Ty} (concrete : ty.isVariable = false) :
    ty.renderWith style = ty.renderPart style := by
  cases ty with
  | var parameter => simp [isVariable] at concrete
  | nominal | array | parameterized | wildcard => rfl

end Ty

end NominalTypes
