import NominalTypes.Ty.Basic

/-!
# The parts of a type expression

All expressions that a type expression is built from, itself included. The bounds of a variable
belong to its declaration and are no parts of the expressions that it occurs in. An expression is
canonical when every array type in it has the form that `Ty.arrayOf` gives it.
-/

namespace NominalTypes

namespace Ty

mutual

/-- The expressions that the expression is built from, itself first. -/
def parts : Ty → List Ty
  | .nominal named => [.nominal named]
  | .array component => .array component :: component.parts
  | .parameterized owner raw arguments =>
      .parameterized owner raw arguments :: (partsOwner owner ++ partsAll arguments)
  | .var parameter => [.var parameter]
  | .wildcard upper lower => .wildcard upper lower :: (partsAll upper ++ partsAll lower)
termination_by structural ty => ty

/-- `Ty.parts` for an optional expression. -/
def partsOwner : Option Ty → List Ty
  | none => []
  | some owner => owner.parts
termination_by structural owner => owner

/-- `Ty.parts` for one expression after the other. -/
def partsAll : List Ty → List Ty
  | [] => []
  | ty :: rest => ty.parts ++ partsAll rest
termination_by structural list => list

end

/-- The expression is no generic array of a class that has room for one more dimension. -/
def HasCanonicalForm : Ty → Prop
  | .array (.nominal named) => named.dims = 255
  | _ => True

/-- Every array type in the expression has its canonical form. -/
def IsCanonical (self : Ty) : Prop := ∀ part ∈ self.parts, part.HasCanonicalForm

theorem mem_parts_self (self : Ty) : self ∈ self.parts := by
  cases self <;> simp [parts]

theorem mem_partsAll {part : Ty} {list : List Ty} :
    part ∈ partsAll list ↔ ∃ ty ∈ list, part ∈ ty.parts := by
  induction list with
  | nil => simp [partsAll]
  | cons ty rest ih => simp [partsAll, ih]

theorem arrayOf_hasCanonicalForm (component : Ty) : (arrayOf component).HasCanonicalForm := by
  cases component with
  | nominal named =>
      cases built : named.arrayOf? with
      | some arrayClass => simp [arrayOf, built, HasCanonicalForm]
      | none =>
          have bound := named.dims_le
          have full : ¬named.dims < 255 := by
            intro room
            simp [ClassName.arrayOf?, room] at built
          simp only [arrayOf, built, HasCanonicalForm]
          omega
  | array | parameterized | var | wildcard => trivial

end Ty

end NominalTypes
