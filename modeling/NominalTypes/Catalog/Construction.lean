import NominalTypes.Catalog.Basic

/-!
# Checked construction of types

Two kinds of type expressions depend on what is declared. A class is applied to as many arguments
as it has type parameters, at least one, and becomes a member of its enclosing class. A type
variable has a name, and bounds that a class could have as supertypes: the first may be any class
or another variable, the others are interfaces.
-/

namespace NominalTypes

namespace Catalog

/-- A class applied to type arguments; without an owner given, its enclosing class owns it. -/
def parameterize (self : Catalog) (owner : Option Ty) (raw : ClassName) (arguments : List Ty) :
    Except TypeError Ty :=
  if self.contains raw then
    if self.arity raw = 0 ∨ self.arity raw ≠ arguments.length then
      .error (.malformed raw (self.arity raw) arguments.length)
    else .ok (.parameterized (owner.or ((self.enclosing? raw).map .nominal)) raw arguments)
  else .error (.classNotFound raw.render)

/-- A class applied to an unbounded wildcard for each of its type parameters. -/
def parameterizeUnbounded (self : Catalog) (raw : ClassName) : Except TypeError Ty :=
  self.parameterize none raw (List.replicate (self.arity raw) .unboundedWildcard)

/-- The first bound of a type variable is neither an array type nor a wildcard. -/
def checkFirstBound (bound : Ty) : Except TypeError Unit :=
  if bound.isArray then .error (.arrayBound bound)
  else if bound.isWildcard then .error (.wildcardBound bound)
  else .ok ()

/-- The type is an interface, possibly applied to arguments. -/
def isInterfaceType (self : Catalog) : Ty → Bool
  | .nominal named => self.isInterface named
  | .parameterized _ raw _ => self.isInterface raw
  | _ => false

/-- The bounds are such as a type variable can have. -/
def checkBounds (self : Catalog) : List Ty → Except TypeError Unit
  | [] => .ok ()
  | first :: others => do
      checkFirstBound first
      match others.find? fun bound => !self.isInterfaceType bound with
      | some bound => .error (.boundNotInterface bound)
      | none => .ok ()

/-- A type variable with the given bounds; without any it is bounded by `java.lang.Object`. -/
def boundVariable (self : Catalog) (site : DeclarationSite) (name : String) (bounds : List Ty) :
    Except TypeError TypeVariable :=
  if name = "" then .error .emptyVariableName
  else do
    self.checkBounds (Ty.boundsOrObject bounds)
    .ok { site, name, bounds := Ty.boundsOrObject bounds }

end Catalog

end NominalTypes
