import NominalTypes.Ty.Traversal

/-!
# Visitors of type expressions

A visitor carries a state through a type expression, from left to right. It has a hook for each kind
of expression, and one that all expressions pass first. The hook of an expression with parts is given
the walk through them; it makes the walk when it chooses to, or leaves it out. What a visitor does
not say is done by default: every walk is made, but the one through the bounds of a variable.

`TypeVisitor.reporting` tells what it meets. `TypeVisitor.variableCollector` notes the variables and
has no other hook of its own.
-/

namespace NominalTypes

/-- The variable that a walk meets. -/
def TraversalEvent.variable? : TraversalEvent → Option TypeVariable
  | .var parameter => some parameter
  | _ => none

/-- What is done to a state at each kind of type expression. -/
structure TypeVisitor (State : Type) where
  onType : Ty → (State → State) → State → State := fun _ walk => walk
  onClass : ClassName → State → State := fun _ state => state
  onArray : Ty → (State → State) → State → State := fun _ walk => walk
  onParameterized : Option Ty → ClassName → List Ty → (State → State) → State → State :=
    fun _ _ _ walk => walk
  /-- A variable is a leaf by default. -/
  onVariable : TypeVariable → (State → State) → State → State := fun _ _ state => state
  onWildcard : List Ty → List Ty → (State → State) → State → State := fun _ _ walk => walk

namespace TypeVisitor

variable {State : Type}

mutual

/-- The state that a visit to the expression leaves. -/
def visit (self : TypeVisitor State) : Ty → State → State
  | .nominal named => self.onType (.nominal named) (self.onClass named)
  | .array component =>
      self.onType (.array component) (self.onArray component (self.visit component))
  | .parameterized owner raw arguments =>
      self.onType (.parameterized owner raw arguments)
        (self.onParameterized owner raw arguments fun state =>
          self.visitAll arguments (self.onClass raw (self.visitOwner owner state)))
  | .var ⟨site, name, bounds⟩ =>
      self.onType (.var ⟨site, name, bounds⟩)
        (self.onVariable ⟨site, name, bounds⟩ (self.visitAll bounds))
  | .wildcard upper lower =>
      self.onType (.wildcard upper lower)
        (self.onWildcard upper lower fun state => self.visitAll lower (self.visitAll upper state))
termination_by structural ty => ty

/-- `TypeVisitor.visit` for an optional expression. -/
def visitOwner (self : TypeVisitor State) : Option Ty → State → State
  | none => id
  | some owner => self.visit owner
termination_by structural owner => owner

/-- `TypeVisitor.visit` for one expression after the other. -/
def visitAll (self : TypeVisitor State) : List Ty → State → State
  | [] => id
  | part :: parts => fun state => self.visitAll parts (self.visit part state)
termination_by structural parts => parts

end

/-- The visitor that reports what it meets and walks through what the plan lets it enter. -/
def reporting (plan : TraversalPlan) (report : State → TraversalEvent → State) :
    TypeVisitor State where
  onClass named state := report state (.nominal named)
  onArray component walk state :=
    let entered := report state (.arrayStart component)
    report (if plan.entersArrays then walk entered else entered) .arrayEnd
  onParameterized _ raw _ walk state :=
    let entered := report state (.parameterizedStart raw)
    report (if plan.entersParameterized then walk entered else entered) .parameterizedEnd
  onVariable parameter walk state :=
    let entered := report state (.var parameter)
    if plan.entersVariables then walk entered else entered
  onWildcard upper lower walk state :=
    let entered := report state (.wildcardStart upper lower)
    report (if plan.entersWildcards then walk entered else entered) .wildcardEnd

/-- The visitor that adds each variable to those found, unless it is among them. -/
def variableCollector : TypeVisitor (List TypeVariable) where
  onVariable parameter _ found := if parameter ∈ found then found else found ++ [parameter]

end TypeVisitor

end NominalTypes
