import NominalTypes.Proofs.Ty.Substitution

/-!
# The variables of a type expression

The variables that are gathered from an expression are those that occur in it. So where bindings are
applied, the variables of the result are those that are not bound, and those of what the others are
bound to.
-/

namespace NominalTypes

namespace Ty

/-- The found variables with one more at their end, unless it is among them. -/
def addVariable (found : List TypeVariable) (parameter : TypeVariable) : List TypeVariable :=
  if parameter ∈ found then found else found ++ [parameter]

theorem mem_addVariable {found : List TypeVariable} {parameter other : TypeVariable} :
    other ∈ addVariable found parameter ↔ other ∈ found ∨ other = parameter := by
  unfold addVariable
  split
  · next isFound =>
    constructor
    · exact Or.inl
    · rintro (old | rfl)
      · exact old
      · exact isFound
  · simp

mutual

/-- Gathering from an expression adds its variables one by one, in the order of their places. -/
theorem gatherVariables_eq_foldl (found : List TypeVariable) :
    ∀ ty : Ty, gatherVariables found ty = ty.occurrences.foldl addVariable found
  | .nominal _ => rfl
  | .array component => gatherVariables_eq_foldl found component
  | .parameterized owner _ arguments => by
      rw [gatherVariables, occurrences, List.foldl_append, gatherVariablesOwner_eq_foldl,
        gatherVariablesAll_eq_foldl]
  | .var _ => rfl
  | .wildcard upper lower => by
      rw [gatherVariables, occurrences, List.foldl_append, gatherVariablesAll_eq_foldl,
        gatherVariablesAll_eq_foldl]
termination_by structural ty => ty

theorem gatherVariablesOwner_eq_foldl (found : List TypeVariable) :
    ∀ owner : Option Ty,
      gatherVariablesOwner found owner = (occurrencesOwner owner).foldl addVariable found
  | none => rfl
  | some owner => gatherVariables_eq_foldl found owner
termination_by structural owner => owner

theorem gatherVariablesAll_eq_foldl (found : List TypeVariable) :
    ∀ parts : List Ty,
      gatherVariablesAll found parts = (occurrencesAll parts).foldl addVariable found
  | [] => rfl
  | part :: parts => by
      rw [gatherVariablesAll, occurrencesAll, List.foldl_append, gatherVariables_eq_foldl,
        gatherVariablesAll_eq_foldl]
termination_by structural parts => parts

end

theorem mem_foldl_addVariable {parameters found : List TypeVariable} {other : TypeVariable} :
    other ∈ parameters.foldl addVariable found ↔ other ∈ found ∨ other ∈ parameters := by
  induction parameters generalizing found with
  | nil => simp
  | cons first rest ih => rw [List.foldl_cons, ih, mem_addVariable, List.mem_cons, or_assoc]

/-- The type variables are the variables that occur. -/
theorem mem_typeVariables {ty : Ty} {parameter : TypeVariable} :
    parameter ∈ ty.typeVariables ↔ parameter ∈ ty.occurrences := by
  rw [typeVariables, gatherVariables_eq_foldl, mem_foldl_addVariable]
  exact or_iff_right List.not_mem_nil

end Ty

namespace Bindings

/--
The variables of an expression that bindings are applied to are those of its variables that are not
bound, and the variables of what the others are bound to.
-/
theorem mem_typeVariables_apply (self : Bindings) (ty : Ty) (parameter : TypeVariable) :
    parameter ∈ (self.apply ty).typeVariables ↔
      (parameter ∈ ty.typeVariables ∧ self.get? parameter = none) ∨
        ∃ original ∈ ty.typeVariables, ∃ replacement,
          self.get? original = some replacement ∧ parameter ∈ replacement.typeVariables := by
  simp only [Ty.mem_typeVariables, occurrences_apply, List.mem_flatMap, mem_occurrencesAt]
  constructor
  · rintro ⟨original, occurs, ⟨unbound, rfl⟩ | ⟨replacement, isBound, inside⟩⟩
    · exact Or.inl ⟨occurs, unbound⟩
    · exact Or.inr ⟨original, occurs, replacement, isBound, inside⟩
  · rintro (⟨occurs, unbound⟩ | ⟨original, occurs, replacement, isBound, inside⟩)
    · exact ⟨parameter, occurs, Or.inl ⟨unbound, rfl⟩⟩
    · exact ⟨original, occurs, Or.inr ⟨replacement, isBound, inside⟩⟩

end Bindings

end NominalTypes
