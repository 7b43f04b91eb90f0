import NominalTypes.Catalog.Construction

/-!
# Collection types

The common generic types of collections and of what goes through them. Without arguments they are
applied to unbounded wildcards.
-/

namespace NominalTypes

/-- The common collection types. -/
inductive CollectionKind where
  | comparator
  | enumeration
  | iterator
  | listIterator
  | collection
  | set
  | sortedSet
  | list
  | queue
  | map
  | sortedMap
deriving DecidableEq, Repr

namespace CollectionKind

/-- The generic class of the collection type. -/
def raw : CollectionKind → ClassName
  | .comparator => .plain "java.util.Comparator"
  | .enumeration => .plain "java.util.Enumeration"
  | .iterator => .plain "java.util.Iterator"
  | .listIterator => .plain "java.util.ListIterator"
  | .collection => .plain "java.util.Collection"
  | .set => .plain "java.util.Set"
  | .sortedSet => .plain "java.util.SortedSet"
  | .list => .plain "java.util.List"
  | .queue => .plain "java.util.Queue"
  | .map => .plain "java.util.Map"
  | .sortedMap => .plain "java.util.SortedMap"

/-- The number of types that the collection type is about: keys and values, or elements. -/
def parameterCount : CollectionKind → Nat
  | .map | .sortedMap => 2
  | _ => 1

/-- The collection type for any elements. -/
def unboundedType (self : CollectionKind) (catalog : Catalog) : Except TypeError Ty :=
  catalog.parameterizeUnbounded self.raw

/-- The collection type for the given elements, or keys and values. -/
def appliedType (self : CollectionKind) (catalog : Catalog) (arguments : List Ty) :
    Except TypeError Ty :=
  catalog.parameterize none self.raw arguments

end CollectionKind

end NominalTypes
