import NominalTypes.Hierarchy.Ancestry

/-!
# Looking for an ancestor with a stack of classes

Whether one class is an ancestor of another can also be answered class by class. A stack holds the
classes that are still to be looked at. The class on its top is the one that is looked for, or was
visited before, or is marked as visited while its supertypes are put on the stack. Nothing keeps a
class from being on the stack more than once. The search runs for a given number of steps.
-/

namespace NominalTypes

/-- The elements that a search has visited, and those still to be looked at, the next one first. -/
structure Worklist (element : Type) where
  visited : List element
  pending : List element

namespace Worklist

section

variable {element : Type} [DecidableEq element]

/-- The search at its start: nothing is visited, and one element is to be looked at. -/
def initial (start : element) : Worklist element := ⟨[], [start]⟩

/--
Looks at the next element. The search is over with an answer, or there is more to do; an element
that is visited for the first time leaves its neighbours on top of the others, the last one first.
-/
def step (next : element → List element) (target : element) :
    Worklist element → Bool ⊕ Worklist element
  | ⟨_, []⟩ => .inl false
  | ⟨visited, current :: rest⟩ =>
      if current = target then .inl true
      else if current ∈ visited then .inr ⟨visited, rest⟩
      else .inr ⟨current :: visited, (next current).reverse ++ rest⟩

/-- The answer of the search, if it is over after the given number of steps. -/
def run (next : element → List element) (target : element) :
    Nat → Worklist element → Option Bool
  | 0, _ => none
  | steps + 1, state =>
      match step next target state with
      | .inl answer => some answer
      | .inr later => run next target steps later

end

end Worklist

namespace Catalog

/-- The answer to whether a class is an ancestor of another, if it is found in that many steps. -/
def searchAncestor (self : Catalog) (ancestor named : ClassName) (steps : Nat) : Option Bool :=
  Worklist.run self.erasedSupertypes ancestor steps (.initial named)

/--
The number of steps in which all ancestors of a class are looked through: one for each supertype of
an ancestor, one for the class itself, and one to find the stack empty.
-/
def searchSteps (self : Catalog) (named : ClassName) : Nat :=
  ((self.ancestors named).flatMap self.erasedSupertypes).length + 2

end Catalog

end NominalTypes
