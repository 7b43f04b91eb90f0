import NominalTypes.Imports

/-!
# Catalogs of declared classes

What is known about classes: their kind, type parameters, superclass and interfaces, in the order
of their declaration. The primitive types are always known. An array class is known when its
element is; it extends `java.lang.Object` and implements those of its two interfaces that are
declared. Questions about classes that are not known have empty answers.
-/

namespace NominalTypes

/-- What is declared about one class. -/
structure ClassInfo where
  name : String
  kind : ClassKind
  typeParameters : List TypeVariable
  superclass : Option Ty
  interfaces : List Ty
deriving DecidableEq

/-- The declared classes in the order of their declaration, each name once. -/
structure Catalog where
  classes : List ClassInfo
  distinct : (classes.map ClassInfo.name).Nodup

namespace Catalog

/-- The catalog without declared classes. -/
def empty : Catalog := ⟨[], by simp⟩

/-- The number of declared classes. -/
def size (self : Catalog) : Nat := self.classes.length

/-- The names of the declared classes in the order of their declaration. -/
def names (self : Catalog) : List String := self.classes.map ClassInfo.name

/-- What is declared about a class. -/
def get? (self : Catalog) (named : ClassName) : Option ClassInfo :=
  if named.dims = 0 then self.classes.find? fun info => info.name = named.name else none

/-- A class of the name is declared. -/
def declares (self : Catalog) (name : String) : Bool := name ∈ self.names

/-- The class is known: its element is primitive or declared. -/
def contains (self : Catalog) (named : ClassName) : Bool :=
  named.element.isPrimitive || self.declares named.name

/-- The declared type parameters of a class in order. -/
def typeParameters (self : Catalog) (named : ClassName) : List TypeVariable :=
  match self.get? named with
  | some info => info.typeParameters
  | none => []

/-- The number of type arguments that a class takes. -/
def arity (self : Catalog) (named : ClassName) : Nat := (self.typeParameters named).length

/-- The class is declared as an interface. -/
def isInterface (self : Catalog) (named : ClassName) : Bool :=
  match self.get? named with
  | some info => info.kind = .interface
  | none => false

/-- The interfaces of every array class. -/
def arrayInterfaces : List String := ["java.lang.Cloneable", "java.io.Serializable"]

/-- The direct superclass, with the class's own type variables in it. -/
def superclass (self : Catalog) (named : ClassName) : Option Ty :=
  if named.isArray then
    if self.contains named then some .object else none
  else (self.get? named).bind ClassInfo.superclass

/-- The direct interfaces in order, with the class's own type variables in them. -/
def interfaces (self : Catalog) (named : ClassName) : List Ty :=
  if named.isArray then
    if self.contains named then
      (arrayInterfaces.filter self.declares).map fun name => .nominal (.plain name)
    else []
  else
    match self.get? named with
    | some info => info.interfaces
    | none => []

/-- The direct supertypes of a class, the superclass first. -/
def supertypes (self : Catalog) (named : ClassName) : List Ty :=
  (self.superclass named).toList ++ self.interfaces named

/-- The class that a nested class is declared in, if that is known. -/
def enclosing? (self : Catalog) (named : ClassName) : Option ClassName :=
  named.enclosing?.filter self.contains

/-- The import context of all declared classes. -/
def imports (self : Catalog) : Imports := ⟨self.names, self.distinct⟩

/-- The catalog with one more class at its end, unless a class of the name is declared. -/
def declare? (self : Catalog) (info : ClassInfo) : Option Catalog :=
  if known : info.name ∈ self.names then none
  else
    some ⟨self.classes ++ [info], by
      rw [List.map_append, List.nodup_append]
      refine ⟨self.distinct, by simp, ?_⟩
      intro earlier member later isLast same
      cases List.mem_singleton.1 isLast
      exact known (same ▸ member)⟩

/-- The catalog with what is known about one of its classes put in the place of what was. -/
def replace (self : Catalog) (info : ClassInfo) : Catalog where
  classes := self.classes.map fun old => if old.name = info.name then info else old
  distinct := by
    have kept : (ClassInfo.name ∘ fun old => if old.name = info.name then info else old) =
        ClassInfo.name := by
      funext old
      by_cases same : old.name = info.name <;> simp [same]
    rw [List.map_map, kept]
    exact self.distinct

theorem get?_dims {self : Catalog} {named : ClassName} {info : ClassInfo}
    (found : self.get? named = some info) : named.dims = 0 := by
  unfold get? at found
  split at found
  · assumption
  · cases found

theorem get?_name {self : Catalog} {named : ClassName} {info : ClassInfo}
    (found : self.get? named = some info) : info.name = named.name := by
  unfold get? at found
  split at found
  · simpa using List.find?_some found
  · cases found

theorem mem_classes_of_get? {self : Catalog} {named : ClassName} {info : ClassInfo}
    (found : self.get? named = some info) : info ∈ self.classes := by
  unfold get? at found
  split at found
  · exact List.mem_of_find?_eq_some found
  · cases found

@[simp] theorem names_replace (self : Catalog) (info : ClassInfo) :
    (self.replace info).names = self.names := by
  have kept : (ClassInfo.name ∘ fun old => if old.name = info.name then info else old) =
      ClassInfo.name := by
    funext old
    by_cases same : old.name = info.name <;> simp [same]
  simp [names, replace, kept]

theorem names_declare? {self extended : Catalog} {info : ClassInfo}
    (declared : self.declare? info = some extended) :
    extended.names = self.names ++ [info.name] := by
  unfold declare? at declared
  split at declared
  · cases declared
  · cases declared
    simp [names]

end Catalog

end NominalTypes
