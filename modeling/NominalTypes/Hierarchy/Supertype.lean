import NominalTypes.Hierarchy.Ancestry
import NominalTypes.Ty.Bindings

/-!
# How a class parameterizes an ancestor

The supertypes of a class are searched depth first, the superclass before the interfaces. Each is
taken as declared, with the type parameters of its class bound to the arguments that the class was
reached with; the first one whose erasure is the ancestor is the answer. The type parameters of
the class that the search starts from stay as they are. A generic class that is reached without
arguments is followed with unbounded wildcards for its parameters.

On a class graph with a cycle the search may never end. The limit of its depth is above the number
of classes that one path can visit, so that a path which exceeds it has visited a class twice.
-/

namespace NominalTypes

/-- The first item that something is found for. -/
def firstFound {item result : Type} (find : item → Except TypeError (Option result)) :
    List item → Except TypeError (Option result)
  | [] => .ok none
  | first :: rest =>
      match find first with
      | .ok none => firstFound find rest
      | answer => answer

namespace Catalog

/-- The bindings that the search goes on with in the class that a supertype erases to. -/
def bindingsAlong (self : Catalog) (supertype : Ty) (raw : ClassName) : Bindings :=
  match supertype with
  | .parameterized _ _ arguments => Bindings.forClass self raw arguments
  | _ =>
      Bindings.ofList
        ((self.typeParameters raw).map fun parameter => (parameter, .unboundedWildcard))

/-- The supertype of a class with the given bindings that erases to the ancestor. -/
def findSupertype (self : Catalog) (ancestor : ClassName) :
    Nat → ClassName → Bindings → Except TypeError (Option Ty)
  | 0, _, _ => .error .endless
  | depth + 1, named, bindings =>
      firstFound
        (fun declared =>
          match (bindings.apply declared).erase with
          | .error _ => .ok none
          | .ok raw =>
              if raw = ancestor then .ok (some (bindings.apply declared))
              else
                self.findSupertype ancestor depth raw
                  (self.bindingsAlong (bindings.apply declared) raw))
        (self.supertypes named)

/-- A depth that no path of supertypes without a repeated class exceeds. -/
def searchDepth (self : Catalog) : Nat := self.supertypeCount + 2

/-- The parameterization of the ancestor that a class inherits; a class is its own ancestor. -/
def resolveSupertype (self : Catalog) (named ancestor : ClassName) :
    Except TypeError (Option Ty) :=
  if named = ancestor then .ok (some (.nominal named))
  else self.findSupertype ancestor self.searchDepth named .empty

/-- The parameterization of the ancestor that a class or a parameterized type inherits. -/
def resolveSupertypeOf (self : Catalog) (ty : Ty) (ancestor : ClassName) :
    Except TypeError (Option Ty) :=
  match ty with
  | .nominal named => self.resolveSupertype named ancestor
  | .parameterized owner raw arguments =>
      if raw = ancestor then .ok (some (.parameterized owner raw arguments))
      else
        self.findSupertype ancestor self.searchDepth raw (Bindings.forClass self raw arguments)
  | other => .error (.noSupertypes other)

end Catalog

end NominalTypes
