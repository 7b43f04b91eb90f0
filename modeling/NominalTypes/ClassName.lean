import NominalTypes.Text.Segment
import NominalTypes.Primitive

/-!
# Class names

A nominal type is known by its binary name, in which `.` separates packages and `$` nested
classes, and by a number of array dimensions between 0 and 255. The array classes over a class are
thus nominal themselves: `java.lang.Integer[]` is the class whose component is
`java.lang.Integer`.
-/

namespace NominalTypes

/-- A binary name with a number of array dimensions. -/
structure ClassName where
  name : String
  dims : Nat := 0
  dims_le : dims ≤ 255 := by decide
deriving DecidableEq, Repr

/-- The text of a number of array dimensions, `[]` for each. -/
def arraySuffix : Nat → String
  | 0 => ""
  | dims + 1 => "[]" ++ arraySuffix dims

/-- The character separates two segments of a binary name. -/
def separatesSegments (character : Char) : Bool :=
  character = '.' || character = '$'

/-- The trailing segment of a binary name, after its last package or nesting separator. -/
def simpleNameOf (name : String) : String :=
  String.ofList (Text.lastSegment separatesSegments name.toList)

namespace ClassName

/-- The class of a binary name, without array dimensions. -/
def plain (name : String) : ClassName where
  name := name

/-- The class of a primitive type. -/
def ofPrimitive (primitive : Primitive) : ClassName := plain primitive.keyword

/-- The class that every reference type is a subtype of. -/
def object : ClassName := plain "java.lang.Object"

/-- The class is an array class. -/
def isArray (self : ClassName) : Bool :=
  0 < self.dims

/-- The array class over a class, unless the class has all its dimensions already. -/
def arrayOf? (self : ClassName) : Option ClassName :=
  if room : self.dims < 255 then some ⟨self.name, self.dims + 1, room⟩ else none

/-- The class of the elements' type with one dimension less, for an array class. -/
def component? (self : ClassName) : Option ClassName :=
  if self.dims = 0 then none
  else some ⟨self.name, self.dims - 1, Nat.le_trans (Nat.sub_le _ _) self.dims_le⟩

/-- The class with some of its array dimensions taken off. -/
def strip (self : ClassName) (dims : Nat) : ClassName where
  name := self.name
  dims := self.dims - dims
  dims_le := Nat.le_trans (Nat.sub_le _ _) self.dims_le

/-- The innermost class, which is no array class. -/
def element (self : ClassName) : ClassName := plain self.name

/-- The primitive type that the class is, if it is one; array classes are not. -/
def asPrimitive? (self : ClassName) : Option Primitive :=
  if self.dims = 0 then Primitive.ofKeyword? self.name else none

/-- The class is a primitive type. -/
def isPrimitive (self : ClassName) : Bool :=
  self.asPrimitive?.isSome

/-- The class is `java.lang.Object`. -/
def isObject (self : ClassName) : Bool :=
  self = object

/-- The trailing segment of the element's name. -/
def simpleName (self : ClassName) : String :=
  simpleNameOf self.name

/-- The element's name up to its last dot, empty for a name without one. -/
def package (self : ClassName) : String :=
  match Text.splitLast? (· = '.') self.name.toList with
  | some (before, _) => String.ofList before
  | none => ""

/--
The class that a nested class is declared in, read off its last `$`. A `$` in the package is no
nesting separator, and array classes are not nested.
-/
def enclosing? (self : ClassName) : Option ClassName :=
  if self.dims = 0 then
    match Text.splitLast? (· = '$') self.name.toList with
    | some (outer, member) => if '.' ∈ member then none else some (plain (String.ofList outer))
    | none => none
  else none

/-- The binary name followed by the array dimensions. -/
def render (self : ClassName) : String :=
  self.name ++ arraySuffix self.dims

/-- Names are ordered by code points, and one name's classes by their dimensions. -/
def le (left right : ClassName) : Bool :=
  left.name < right.name || (left.name = right.name && left.dims ≤ right.dims)

/-- The classes in ascending order. -/
def sort (classes : List ClassName) : List ClassName :=
  classes.mergeSort le

@[simp] theorem element_dims (self : ClassName) : self.element.dims = 0 := rfl

@[simp] theorem element_name (self : ClassName) : self.element.name = self.name := rfl

theorem element_of_dims {named : ClassName} (plain : named.dims = 0) : named.element = named := by
  rcases named with ⟨name, dims, fits⟩
  cases plain
  rfl

theorem enclosing?_dims {named outer : ClassName} (encloses : named.enclosing? = some outer) :
    outer.dims = 0 := by
  unfold enclosing? at encloses
  split at encloses
  · split at encloses
    · split at encloses
      · cases encloses
      · cases encloses
        rfl
    · cases encloses
  · cases encloses

/-- The component of an array class is the class that it was built over. -/
theorem component?_of_arrayOf? {component array : ClassName}
    (built : component.arrayOf? = some array) : array.component? = some component := by
  unfold arrayOf? at built
  split at built
  · cases built
    simp [component?]
  · cases built

/-- An array class is built over its component again. -/
theorem arrayOf?_of_component? {component array : ClassName}
    (taken : array.component? = some component) : component.arrayOf? = some array := by
  unfold component? at taken
  split at taken
  · cases taken
  · next positive =>
    cases taken
    have bound := array.dims_le
    have room : array.dims - 1 < 255 := by omega
    have restored : array.dims - 1 + 1 = array.dims := by omega
    simp [arrayOf?, room, restored]

end ClassName

end NominalTypes
