import NominalTypes.Ty.Basic

/-!
# Walking through type expressions

A walk visits the parts of an expression from left to right and reports what it meets: the owner
of a parameterized type, its raw class and its arguments; the upper and then the lower bounds of a
wildcard; the component of an array. It can be told which compound types it does not enter. The
bounds of a variable are entered on demand only.

`Ty.typeVariables` gathers the variables of an expression, each at its first place;
`Ty.occurrences` gives all their places.
-/

namespace NominalTypes

/-- What a walk through a type expression meets. -/
inductive TraversalEvent where
  | nominal (named : ClassName)
  | arrayStart (component : Ty)
  | arrayEnd
  | parameterizedStart (raw : ClassName)
  | parameterizedEnd
  | var (parameter : TypeVariable)
  | wildcardStart (upper lower : List Ty)
  | wildcardEnd

/-- Which types a walk enters. -/
structure TraversalPlan where
  entersArrays : Bool := true
  entersParameterized : Bool := true
  entersWildcards : Bool := true
  entersVariables : Bool := false

namespace Ty

mutual

/-- What a walk through the expression meets, in order. -/
def events (plan : TraversalPlan) : Ty → List TraversalEvent
  | .nominal named => [.nominal named]
  | .array component =>
      .arrayStart component ::
        (if plan.entersArrays then component.events plan else []) ++ [.arrayEnd]
  | .parameterized owner raw arguments =>
      .parameterizedStart raw ::
        (if plan.entersParameterized then
          eventsOwner plan owner ++ .nominal raw :: eventsAll plan arguments
        else []) ++ [.parameterizedEnd]
  | .var ⟨site, name, bounds⟩ =>
      .var ⟨site, name, bounds⟩ :: (if plan.entersVariables then eventsAll plan bounds else [])
  | .wildcard upper lower =>
      .wildcardStart upper lower ::
        (if plan.entersWildcards then eventsAll plan upper ++ eventsAll plan lower else []) ++
        [.wildcardEnd]
termination_by structural ty => ty

/-- `Ty.events` for an optional expression. -/
def eventsOwner (plan : TraversalPlan) : Option Ty → List TraversalEvent
  | none => []
  | some owner => owner.events plan
termination_by structural owner => owner

/-- `Ty.events` for one expression after the other. -/
def eventsAll (plan : TraversalPlan) : List Ty → List TraversalEvent
  | [] => []
  | part :: parts => part.events plan ++ eventsAll plan parts
termination_by structural parts => parts

end

mutual

/-- The classes named in the expression, in order; the bounds of variables are not searched. -/
def classes : Ty → List ClassName
  | .nominal named => [named]
  | .array component => component.classes
  | .parameterized owner raw arguments => classesOwner owner ++ raw :: classesAll arguments
  | .var _ => []
  | .wildcard upper lower => classesAll upper ++ classesAll lower
termination_by structural ty => ty

/-- `Ty.classes` for an optional expression. -/
def classesOwner : Option Ty → List ClassName
  | none => []
  | some owner => owner.classes
termination_by structural owner => owner

/-- `Ty.classes` for one expression after the other. -/
def classesAll : List Ty → List ClassName
  | [] => []
  | part :: parts => part.classes ++ classesAll parts
termination_by structural parts => parts

end

mutual

/-- The found variables, with those of the expression that are not among them at their end. -/
def gatherVariables (found : List TypeVariable) : Ty → List TypeVariable
  | .nominal _ => found
  | .array component => gatherVariables found component
  | .parameterized owner _ arguments =>
      gatherVariablesAll (gatherVariablesOwner found owner) arguments
  | .var parameter => if parameter ∈ found then found else found ++ [parameter]
  | .wildcard upper lower => gatherVariablesAll (gatherVariablesAll found upper) lower
termination_by structural ty => ty

/-- `Ty.gatherVariables` for an optional expression. -/
def gatherVariablesOwner (found : List TypeVariable) : Option Ty → List TypeVariable
  | none => found
  | some owner => gatherVariables found owner
termination_by structural owner => owner

/-- `Ty.gatherVariables` for one expression after the other. -/
def gatherVariablesAll (found : List TypeVariable) : List Ty → List TypeVariable
  | [] => found
  | part :: parts => gatherVariablesAll (gatherVariables found part) parts
termination_by structural parts => parts

end

/-- The type variables of the expression, each once, in the order of their first places. -/
def typeVariables (self : Ty) : List TypeVariable := gatherVariables [] self

mutual

/-- The type variables of the expression at all their places; their bounds are not searched. -/
def occurrences : Ty → List TypeVariable
  | .nominal _ => []
  | .array component => component.occurrences
  | .parameterized owner _ arguments => occurrencesOwner owner ++ occurrencesAll arguments
  | .var parameter => [parameter]
  | .wildcard upper lower => occurrencesAll upper ++ occurrencesAll lower
termination_by structural ty => ty

/-- `Ty.occurrences` for an optional expression. -/
def occurrencesOwner : Option Ty → List TypeVariable
  | none => []
  | some owner => owner.occurrences
termination_by structural owner => owner

/-- `Ty.occurrences` for one expression after the other. -/
def occurrencesAll : List Ty → List TypeVariable
  | [] => []
  | part :: parts => part.occurrences ++ occurrencesAll parts
termination_by structural parts => parts

end

end Ty

end NominalTypes
