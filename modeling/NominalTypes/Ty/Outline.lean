import NominalTypes.Ty.Basic
import NominalTypes.Text.Quoted

/-!
# Outlines of type expressions

The outline of a type expression shows on one line how it is built: the name of each constructor
with all that it holds. Unlike the printed form it tells apart whatever is not equal.
-/

namespace NominalTypes

/-- A record with its named fields between braces. -/
def outlineRecord (name : String) (fields : List (String × String)) : String :=
  name ++ " \x7b " ++
    String.intercalate ", " (fields.map fun field => field.1 ++ ": " ++ field.2) ++ " \x7d"

/-- The items between brackets. -/
def outlineList (items : List String) : String := "[" ++ String.intercalate ", " items ++ "]"

/-- The item behind the name of its constructor. -/
def outlineTagged (name item : String) : String := name ++ "(" ++ item ++ ")"

/-- The outline of a class name. -/
def ClassName.outline (self : ClassName) : String :=
  outlineRecord "ClassName" [("name", Text.quoted self.name), ("dims", toString self.dims)]

/-- The outline of the place where a type variable is declared. -/
def DeclarationSite.outline : DeclarationSite → String
  | .type declared => outlineTagged "Class" declared.outline
  | .method owner name =>
      outlineRecord "Method" [("owner", owner.outline), ("name", Text.quoted name)]
  | .constructor owner => outlineRecord "Constructor" [("owner", owner.outline)]

namespace Ty

mutual

/-- The outline of a type expression. -/
def outline : Ty → String
  | .nominal named => outlineTagged "Class" named.outline
  | .array component => outlineTagged "Array" component.outline
  | .parameterized owner raw arguments =>
      outlineTagged "Parameterized"
        (outlineRecord "ParameterizedType"
          [("owner", outlineOwner owner), ("raw", raw.outline),
            ("args", outlineList (outlineAll arguments))])
  | .var ⟨site, name, bounds⟩ =>
      outlineTagged "Variable"
        (outlineRecord "TypeVariable"
          [("declaration", site.outline), ("name", Text.quoted name),
            ("bounds", outlineList (outlineAll bounds))])
  | .wildcard upper lower =>
      outlineTagged "Wildcard"
        (outlineRecord "WildcardType"
          [("upper", outlineList (outlineAll upper)), ("lower", outlineList (outlineAll lower))])
termination_by structural ty => ty

/-- The outline of an optional type expression. -/
def outlineOwner : Option Ty → String
  | none => "None"
  | some owner => outlineTagged "Some" owner.outline
termination_by structural owner => owner

/-- The outlines of the expressions in order. -/
def outlineAll : List Ty → List String
  | [] => []
  | part :: parts => part.outline :: outlineAll parts
termination_by structural parts => parts

end

end Ty

end NominalTypes
