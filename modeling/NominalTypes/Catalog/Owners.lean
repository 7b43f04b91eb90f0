import NominalTypes.Catalog.Basic

/-!
# The owners of applied classes

A class that is applied to arguments is owned by its enclosing class, if the catalog knows that. An
expression keeps the owners that it was built with. The catalog may know more by now, and so the same
expression built anew can have more owners.
-/

namespace NominalTypes

namespace Catalog

/-- The owner of the class when it is applied to arguments and none is given. -/
def owner? (self : Catalog) (raw : ClassName) : Option Ty := (self.enclosing? raw).map .nominal

mutual

/-- The expression with the owners that its applied classes have in the catalog. -/
def reown (self : Catalog) : Ty → Ty
  | .nominal named => .nominal named
  | .array component => .array (self.reown component)
  | .parameterized _ raw arguments =>
      .parameterized (self.owner? raw) raw (self.reownAll arguments)
  | .var parameter => .var parameter
  | .wildcard upper lower => .wildcard (self.reownAll upper) (self.reownAll lower)
termination_by structural ty => ty

/-- `Catalog.reown` for each of the expressions. -/
def reownAll (self : Catalog) : List Ty → List Ty
  | [] => []
  | part :: parts => self.reown part :: self.reownAll parts
termination_by structural parts => parts

end

theorem reownAll_eq_map (self : Catalog) (parts : List Ty) :
    self.reownAll parts = parts.map self.reown := by
  induction parts with
  | nil => rfl
  | cons part parts ih => simp [reownAll, ih]

/-- An applied class has the owner that it has in the catalog. -/
def KnowsOwner (self : Catalog) : Ty → Prop
  | .parameterized owner raw _ => owner = self.owner? raw
  | _ => True

end Catalog

end NominalTypes
