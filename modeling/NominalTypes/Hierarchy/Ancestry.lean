import NominalTypes.Catalog.Basic
import NominalTypes.Ty.Erasure
import NominalTypes.Hierarchy.Closure

/-!
# Ancestry and assignability of classes

The ancestors of a class are the classes reached from it over the erasures of its supertypes; the
graph of supertypes may have cycles. A class is assignable to its ancestors, every reference type
to `java.lang.Object`, a primitive type to the types that it widens to, and an array to an array
when their elements, after the dimensions that both have are taken off, are assignable reference
types.
-/

namespace NominalTypes

namespace Catalog

/-- The erasures of the direct supertypes of a class. -/
def erasedSupertypes (self : Catalog) (named : ClassName) : List ClassName :=
  (self.supertypes named).filterMap fun supertype => supertype.erase.toOption

/-- The supertypes that the classes of the catalog declare. -/
def declaredSupertypes (self : Catalog) : List Ty :=
  self.classes.flatMap fun info => info.superclass.toList ++ info.interfaces

/-- The number of supertypes declared in the catalog, and those of array classes. -/
def supertypeCount (self : Catalog) : Nat := self.declaredSupertypes.length + 3

/-- The ancestors of a class, the class itself included. -/
def ancestors (self : Catalog) (named : ClassName) : List ClassName :=
  closure self.erasedSupertypes (self.supertypeCount + 1) named

/-- A value of the subclass can be assigned to the superclass, where not both are arrays. -/
def elementAssignable (self : Catalog) (superclass subclass : ClassName) : Bool :=
  superclass.isObject || superclass ∈ self.ancestors subclass

/-- A value of the second class can be assigned to the first. -/
def classAssignable (self : Catalog) (target source : ClassName) : Bool :=
  if target = source then true
  else
    let shared := min target.dims source.dims
    let targetRest := target.strip shared
    let sourceRest := source.strip shared
    match targetRest.asPrimitive?, sourceRest.asPrimitive? with
    | some wide, some narrow => shared = 0 && wide.widensFrom narrow
    | none, none => self.elementAssignable targetRest sourceRest
    | _, _ => false

end Catalog

end NominalTypes
