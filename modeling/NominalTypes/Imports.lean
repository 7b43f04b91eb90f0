import NominalTypes.TypeError

/-!
# Import contexts

The qualified names that simple names stand for. A simple name resolves to the one import whose
trailing segment it is; two such imports make it ambiguous. The order of insertion only decides
which two imports an ambiguity is reported with.
-/

namespace NominalTypes

/-- A set of binary names in the order of their insertion. -/
structure Imports where
  names : List String
  nodup : names.Nodup

namespace Imports

/-- The context without imports. -/
def empty : Imports := ⟨[], List.nodup_nil⟩

/-- The name is imported. -/
def contains (self : Imports) (name : String) : Bool := name ∈ self.names

/-- The context with one more name, unless it is imported already. -/
def insert (self : Imports) (name : String) : Imports :=
  if known : name ∈ self.names then self
  else
    ⟨self.names ++ [name],
      List.nodup_append.2 ⟨self.nodup, by simp, by
        intro earlier member later isLast same
        cases List.mem_singleton.1 isLast
        exact known (same ▸ member)⟩⟩

/-- The context of the names, each at its first place. -/
def ofList (names : List String) : Imports := names.foldl insert empty

/-- The number of imports. -/
def size (self : Imports) : Nat := self.names.length

/-- The contexts have the same names, in whatever order. -/
def sameNames (left right : Imports) : Bool :=
  left.names.all right.contains && right.names.all left.contains

/-- The imports that a simple name may stand for, in order. -/
def candidates (self : Imports) (simpleName : String) : List String :=
  self.names.filter fun name => simpleNameOf name = simpleName

/-- The one import that a simple name stands for. -/
def resolve (self : Imports) (simpleName : String) : Except TypeError String :=
  match self.candidates simpleName with
  | [] => .error (.classNotFound simpleName)
  | [only] => .ok only
  | first :: second :: _ => .error (.duplicateImports first second)

/-- The simple name of a class resolves to the class. -/
def isUnambiguous (self : Imports) (named : ClassName) : Bool :=
  match self.resolve named.simpleName with
  | .ok name => name = named.name
  | .error _ => false

/-- Simple names where they resolve back to the class, binary names elsewhere. -/
def simpleStyle (self : Imports) : NameStyle := fun named =>
  if self.isUnambiguous named then named.simpleName else named.name

theorem resolve_eq_ok_iff {self : Imports} {simpleName name : String} :
    self.resolve simpleName = .ok name ↔ self.candidates simpleName = [name] := by
  unfold resolve
  split <;> simp_all

end Imports

end NominalTypes
