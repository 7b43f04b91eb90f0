import NominalTypes.Hierarchy.Ancestry

/-!
# Assignability of types

A type is assignable from its equals. A class is assignable from a parameterized type when it is
from its raw class. A parameterized type is assignable from another one when their raw classes are
and each argument is equal to its counterpart or is a wildcard that contains it. A wildcard is
assignable from what lies within its bounds. All else that is assignable from a class is so from
one of the supertypes that the class declares.

Supertypes can be declared so that this comparison never ends. `assignableWithin` limits its
depth; the limit that `assignable` sets is above the number of pairs of types that a comparison
can come to, so that one which exceeds it has come to a pair twice and would go on for ever.
-/

namespace NominalTypes

/-- All the answers are yes; the first one that is missing or no decides otherwise. -/
def allAnswer {item : Type} (test : item → Option Bool) : List item → Option Bool
  | [] => some true
  | first :: rest =>
      match test first with
      | some true => allAnswer test rest
      | answer => answer

/-- Some answer is yes; the first one that is missing or yes decides. -/
def anyAnswer {item : Type} (test : item → Option Bool) : List item → Option Bool
  | [] => some false
  | first :: rest =>
      match test first with
      | some false => anyAnswer test rest
      | answer => answer

/-- A type lies within bounds, by a comparison of a target type with a source type. -/
def withinBounds (compare : Ty → Ty → Option Bool) (upper lower : List Ty) (ty : Ty) :
    Option Bool :=
  match allAnswer (fun bound => compare bound ty) upper with
  | some true => allAnswer (fun bound => compare ty bound) lower
  | answer => answer

/--
An argument is accepted in the place of another: it is equal, or within the wildcard's bounds.
-/
def argumentAccepts (compare : Ty → Ty → Option Bool) (arguments : Ty × Ty) : Option Bool :=
  match arguments.1 with
  | .wildcard upper lower => withinBounds compare upper lower arguments.2
  | target => some (target = arguments.2)

namespace Catalog

/-- A value of the second type can be assigned to the first, if that is found in the given depth. -/
def assignableWithin (self : Catalog) : Nat → Ty → Ty → Option Bool
  | 0, _, _ => none
  | depth + 1, target, source =>
      if target = source then some true
      else
        match target, source with
        | .nominal named, .nominal other => some (self.classAssignable named other)
        | .nominal named, .parameterized _ raw _ => some (self.classAssignable named raw)
        | .parameterized _ targetRaw targets, .parameterized _ sourceRaw sources =>
            if self.classAssignable targetRaw sourceRaw && targets.length = sources.length then
              allAnswer (argumentAccepts (self.assignableWithin depth)) (targets.zip sources)
            else some false
        | .wildcard upper lower, other =>
            withinBounds (self.assignableWithin depth) upper lower other
        | other, .nominal named =>
            anyAnswer (fun supertype => self.assignableWithin depth other supertype)
              (self.supertypes named)
        | _, _ => some false

/-- The number of nodes of the declared supertypes, and of those of array classes. -/
def supertypeSize (self : Catalog) : Nat := Ty.sizeList self.declaredSupertypes + 3

/-- A depth that every comparison of the two types which ends stays within. -/
def comparisonDepth (self : Catalog) (target source : Ty) : Nat :=
  Nat.pow (target.size + source.size + self.supertypeSize) 2 + 1

/-- A value of the second type can be assigned to the first. -/
def assignable (self : Catalog) (target source : Ty) : Except TypeError Bool :=
  match self.assignableWithin (self.comparisonDepth target source) target source with
  | some answer => .ok answer
  | none => .error .endless

/-- The type is a parameterized subtype of the class with exactly one type argument. -/
def isSimpleParameterized (self : Catalog) (ty : Ty) (named : ClassName) : Bool :=
  match ty with
  | .parameterized _ raw arguments => self.classAssignable named raw && arguments.length = 1
  | _ => false

end Catalog

end NominalTypes
