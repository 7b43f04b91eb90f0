import NominalTypes.Catalog.Loading

/-!
# The standard catalog

The basic classes of `java.lang` and the collection classes of `java.util`, which every program
that works with types of that library needs.
-/

namespace NominalTypes

/-- The declarations of the standard classes. -/
def standardDocument : Document where
  classes := [
    { name := "java.lang.Object" },
    { name := "java.lang.Cloneable", kind := .interface },
    { name := "java.io.Serializable", kind := .interface },
    { name := "java.lang.Comparable", kind := .interface, typeParameters := [{ name := "T" }] },
    { name := "java.lang.CharSequence", kind := .interface },
    { name := "java.lang.Iterable", kind := .interface, typeParameters := [{ name := "T" }] },
    { name := "java.lang.Number", interfaces := ["Serializable"] },
    { name := "java.lang.Boolean", interfaces := ["Serializable", "Comparable<Boolean>"] },
    { name := "java.lang.Character", interfaces := ["Serializable", "Comparable<Character>"] },
    { name := "java.lang.Byte", superclass := some "Number", interfaces := ["Comparable<Byte>"] },
    { name := "java.lang.Short", superclass := some "Number",
      interfaces := ["Comparable<Short>"] },
    { name := "java.lang.Integer", superclass := some "Number",
      interfaces := ["Comparable<Integer>"] },
    { name := "java.lang.Long", superclass := some "Number", interfaces := ["Comparable<Long>"] },
    { name := "java.lang.Float", superclass := some "Number",
      interfaces := ["Comparable<Float>"] },
    { name := "java.lang.Double", superclass := some "Number",
      interfaces := ["Comparable<Double>"] },
    { name := "java.lang.Void" },
    { name := "java.lang.String",
      interfaces := ["Serializable", "Comparable<String>", "CharSequence"] },
    { name := "java.util.Iterator", kind := .interface, typeParameters := [{ name := "E" }] },
    { name := "java.util.ListIterator", kind := .interface, typeParameters := [{ name := "E" }],
      interfaces := ["Iterator<E>"] },
    { name := "java.util.Enumeration", kind := .interface, typeParameters := [{ name := "E" }] },
    { name := "java.util.Comparator", kind := .interface, typeParameters := [{ name := "T" }] },
    { name := "java.util.RandomAccess", kind := .interface },
    { name := "java.util.Collection", kind := .interface, typeParameters := [{ name := "E" }],
      interfaces := ["Iterable<E>"] },
    { name := "java.util.Set", kind := .interface, typeParameters := [{ name := "E" }],
      interfaces := ["Collection<E>"] },
    { name := "java.util.SortedSet", kind := .interface, typeParameters := [{ name := "E" }],
      interfaces := ["Set<E>"] },
    { name := "java.util.List", kind := .interface, typeParameters := [{ name := "E" }],
      interfaces := ["Collection<E>"] },
    { name := "java.util.Queue", kind := .interface, typeParameters := [{ name := "E" }],
      interfaces := ["Collection<E>"] },
    { name := "java.util.Map", kind := .interface,
      typeParameters := [{ name := "K" }, { name := "V" }] },
    { name := "java.util.Map$Entry", kind := .interface,
      typeParameters := [{ name := "K" }, { name := "V" }] },
    { name := "java.util.SortedMap", kind := .interface,
      typeParameters := [{ name := "K" }, { name := "V" }], interfaces := ["Map<K, V>"] },
    { name := "java.util.AbstractCollection", typeParameters := [{ name := "E" }],
      interfaces := ["Collection<E>"] },
    { name := "java.util.AbstractList", typeParameters := [{ name := "E" }],
      superclass := some "AbstractCollection<E>", interfaces := ["List<E>"] },
    { name := "java.util.ArrayList", typeParameters := [{ name := "E" }],
      superclass := some "AbstractList<E>",
      interfaces := ["List<E>", "RandomAccess", "Cloneable", "Serializable"] },
    { name := "java.util.LinkedList", typeParameters := [{ name := "E" }],
      superclass := some "AbstractList<E>",
      interfaces := ["List<E>", "Queue<E>", "Cloneable", "Serializable"] },
    { name := "java.util.AbstractSet", typeParameters := [{ name := "E" }],
      superclass := some "AbstractCollection<E>", interfaces := ["Set<E>"] },
    { name := "java.util.HashSet", typeParameters := [{ name := "E" }],
      superclass := some "AbstractSet<E>", interfaces := ["Set<E>", "Cloneable", "Serializable"] },
    { name := "java.util.TreeSet", typeParameters := [{ name := "E" }],
      superclass := some "AbstractSet<E>",
      interfaces := ["SortedSet<E>", "Cloneable", "Serializable"] },
    { name := "java.util.AbstractMap", typeParameters := [{ name := "K" }, { name := "V" }],
      interfaces := ["Map<K, V>"] },
    { name := "java.util.HashMap", typeParameters := [{ name := "K" }, { name := "V" }],
      superclass := some "AbstractMap<K, V>",
      interfaces := ["Map<K, V>", "Cloneable", "Serializable"] },
    { name := "java.util.TreeMap", typeParameters := [{ name := "K" }, { name := "V" }],
      superclass := some "AbstractMap<K, V>",
      interfaces := ["SortedMap<K, V>", "Cloneable", "Serializable"] }]

/-- The catalog of the standard classes. -/
def Catalog.standard : Catalog :=
  match Catalog.empty.extend standardDocument with
  | .ok catalog => catalog
  | .error _ => .empty

end NominalTypes
