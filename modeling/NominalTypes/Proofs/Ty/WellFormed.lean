import NominalTypes.Proofs.Grammar.Denotable
import NominalTypes.Proofs.Ty.Substitution

/-!
# Where wildcards may stand

The grammar has a place for wildcards among type arguments only: the component of an array and the
bounds of a wildcard are other types. An expression is well formed when it keeps to that. What text
denotes is well formed. A replacement of variables keeps an expression so just if no variable that
stands alone in one of the other places is replaced by a wildcard.
-/

namespace NominalTypes

namespace Ty

/-- What stands in the expression where the grammar has no place for a wildcard. -/
def bareParts : Ty → List Ty
  | .array component => [component]
  | .wildcard upper lower => upper ++ lower
  | _ => []

/-- What stands in the expression or its parts where the grammar has no place for a wildcard. -/
def allBareParts (self : Ty) : List Ty := self.parts.flatMap bareParts

/-- Wildcards stand only where the grammar has a place for them. -/
def IsWellFormed (self : Ty) : Prop := ∀ part ∈ self.allBareParts, part.isWildcard = false

instance (self : Ty) : Decidable self.IsWellFormed :=
  inferInstanceAs (Decidable (∀ part ∈ self.allBareParts, part.isWildcard = false))

/-- The variable stands alone where the grammar has no place for a wildcard. -/
def Exposes (self : Ty) (parameter : TypeVariable) : Prop := .var parameter ∈ self.allBareParts

section

variable {property : Ty → Prop}

@[simp] theorem allBareParts_nominal (named : ClassName) : (nominal named).allBareParts = [] := rfl

@[simp] theorem allBareParts_var (parameter : TypeVariable) :
    (var parameter).allBareParts = [] := rfl

theorem allBareParts_array (component : Ty) :
    (array component).allBareParts = component :: component.allBareParts := rfl

theorem forall_allBareParts_parameterized {owner : Option Ty} {raw : ClassName}
    {arguments : List Ty} :
    (∀ part ∈ (parameterized owner raw arguments).allBareParts, property part) ↔
      (∀ ty ∈ owner, ∀ part ∈ ty.allBareParts, property part) ∧
        ∀ ty ∈ arguments, ∀ part ∈ ty.allBareParts, property part := by
  simp only [allBareParts, parts, List.forall_mem_flatMap, List.forall_mem_cons,
    List.forall_mem_append, forall_partsOwner, forall_partsAll]
  simp [bareParts]

theorem forall_allBareParts_wildcard {upper lower : List Ty} :
    (∀ part ∈ (wildcard upper lower).allBareParts, property part) ↔
      ∀ ty ∈ upper ++ lower, property ty ∧ ∀ part ∈ ty.allBareParts, property part := by
  simp only [allBareParts, parts, List.forall_mem_flatMap, List.forall_mem_cons,
    List.forall_mem_append, forall_partsAll, bareParts]
  grind

end

@[simp] theorem isWellFormed_nominal (named : ClassName) : (nominal named).IsWellFormed :=
  List.forall_mem_nil _

@[simp] theorem isWellFormed_var (parameter : TypeVariable) : (var parameter).IsWellFormed :=
  List.forall_mem_nil _

/-- An applied class is well formed if its owner and arguments are. -/
theorem isWellFormed_parameterized {owner : Option Ty} {raw : ClassName} {arguments : List Ty} :
    (parameterized owner raw arguments).IsWellFormed ↔
      (∀ ty ∈ owner, ty.IsWellFormed) ∧ ∀ ty ∈ arguments, ty.IsWellFormed :=
  forall_allBareParts_parameterized

/-- A wildcard is well formed if its bounds are, and none of them is a wildcard. -/
theorem isWellFormed_wildcard {upper lower : List Ty} :
    (wildcard upper lower).IsWellFormed ↔
      ∀ ty ∈ upper ++ lower, ty.isWildcard = false ∧ ty.IsWellFormed :=
  forall_allBareParts_wildcard

/-- An array is well formed if its component is, and is no wildcard. -/
theorem isWellFormed_arrayOf {component : Ty} :
    (arrayOf component).IsWellFormed ↔ component.isWildcard = false ∧ component.IsWellFormed := by
  have isArray : (array component).IsWellFormed ↔
      component.isWildcard = false ∧ component.IsWellFormed := by
    simp only [IsWellFormed, allBareParts_array, List.forall_mem_cons]
  cases component with
  | array | parameterized | var | wildcard => exact isArray
  | nominal named =>
      rcases arrayOf_nominal named with ⟨arrayClass, isClass⟩ | unchanged
      · rw [isClass]
        simp [isWildcard]
      · rw [unchanged]
        exact isArray

theorem IsWellFormed.arrayOfTimes {component : Ty} (concrete : component.isWildcard = false)
    (wellFormed : component.IsWellFormed) (dims : Nat) :
    (arrayOfTimes dims component).IsWellFormed := by
  induction dims generalizing component with
  | zero => exact wellFormed
  | succ dims ih =>
      exact ih (isWildcard_arrayOf component) (isWellFormed_arrayOf.2 ⟨concrete, wellFormed⟩)

@[simp] theorem isWellFormed_unboundedWildcard : unboundedWildcard.IsWellFormed := by
  apply isWellFormed_wildcard.2
  simp [boundsOrObject, object, isWildcard]

end Ty

/-- Denotable types are well formed. -/
theorem Scope.IsDenotable.isWellFormed {scope : Scope} {ty : Ty}
    (denotable : scope.IsDenotable ty) : ty.IsWellFormed := by
  induction denotable with
  | nominal | var => simp
  | @parameterized raw arguments _ _ _ _ _ ih =>
      refine Ty.isWellFormed_parameterized.2 ⟨?_, ih⟩
      intro owner isOwner
      rcases Option.map_eq_some_iff.1 isOwner with ⟨outer, -, rfl⟩
      exact Ty.isWellFormed_nominal outer
  | array _ _ concrete _ ih => exact ih.arrayOfTimes concrete _
  | @wildcard upper lower flat _ _ upperIh lowerIh =>
      apply Ty.isWellFormed_wildcard.2
      intro bound isBound
      rcases List.mem_append.1 isBound with isUpper | isLower
      · cases upper with
        | nil =>
            cases List.mem_singleton.1 isUpper
            exact ⟨rfl, Ty.isWellFormed_nominal _⟩
        | cons first rest =>
            exact ⟨flat bound (List.mem_append_left _ isUpper), upperIh bound isUpper⟩
      · exact ⟨flat bound (List.mem_append_right _ isLower), lowerIh bound isLower⟩

namespace Bindings

variable {self : Bindings}

/-- Variables are bound to well-formed types only. -/
def AreWellFormed (self : Bindings) : Prop :=
  ∀ parameter ty, self.get? parameter = some ty → ty.IsWellFormed

/-- Some variable that stands alone where no wildcard may stand is bound to a wildcard. -/
def Misplaces (self : Bindings) (ty : Ty) : Prop :=
  ∃ parameter wildcard, ty.Exposes parameter ∧ self.get? parameter = some wildcard ∧
    wildcard.isWildcard = true

/-- A replacement gives a wildcard for a wildcard or for a variable bound to one. -/
theorem isWildcard_replace {ty : Ty} :
    (self.replace ty).isWildcard = true ↔ ty.isWildcard = true ∨
      ∃ parameter bound, ty = .var parameter ∧ self.get? parameter = some bound ∧
        bound.isWildcard = true := by
  cases ty with
  | nominal | parameterized | wildcard => simp [replace, Ty.isWildcard]
  | array component =>
      rw [replace, Ty.isWildcard_arrayOf]
      simp [Ty.isWildcard]
  | var parameter =>
      have notWildcard : (Ty.var parameter).isWildcard = false := rfl
      cases bound : self.get? parameter with
      | none => simp [replace, bound, notWildcard]
      | some ty => simp [replace, bound, notWildcard]

/-- A replacement gives a well-formed type if no part that stands alone becomes a wildcard. -/
theorem isWellFormed_replace (wellFormed : self.AreWellFormed) {ty : Ty} :
    (self.replace ty).IsWellFormed ↔
      ∀ part ∈ ty.allBareParts, (self.replace part).isWildcard = false := by
  induction ty using Ty.induct with
  | nominal named => simp [replace]
  | var parameter ih =>
      cases bound : self.get? parameter with
      | none => simp [replace, bound]
      | some ty => simp [replace, bound, wellFormed parameter ty bound]
  | array component ih =>
      rw [replace, Ty.isWellFormed_arrayOf, ih, Ty.allBareParts_array, List.forall_mem_cons]
  | parameterized owner raw arguments ownerIh argumentsIh =>
      rw [replace_parameterized, Ty.isWellFormed_parameterized,
        Ty.forall_allBareParts_parameterized, List.forall_mem_map]
      refine and_congr ?_ (forall₂_congr argumentsIh)
      cases owner with
      | none => simp
      | some ty => simpa using ownerIh ty rfl
  | wildcard upper lower upperIh lowerIh =>
      rw [replace_wildcard, Ty.isWellFormed_wildcard, Ty.forall_allBareParts_wildcard,
        ← List.map_append, List.forall_mem_map]
      apply forall₂_congr
      intro bound isBound
      apply and_congr_right
      intro _
      rcases List.mem_append.1 isBound with isUpper | isLower
      · exact upperIh bound isUpper
      · exact lowerIh bound isLower

/-- A replacement by well-formed types keeps an expression well formed just if it misplaces none. -/
theorem isWellFormed_apply (wellFormed : self.AreWellFormed) {ty : Ty} :
    (self.apply ty).IsWellFormed ↔ ty.IsWellFormed ∧ ¬self.Misplaces ty := by
  have kept : (self.replace ty).IsWellFormed ↔ ty.IsWellFormed ∧ ¬self.Misplaces ty := by
    rw [isWellFormed_replace wellFormed]
    simp only [Ty.IsWellFormed, ← Bool.not_eq_true, isWildcard_replace, not_or]
    constructor
    · intro each
      refine ⟨fun part isPart => (each part isPart).1, ?_⟩
      rintro ⟨parameter, bound, isPart, isBound, isWildcard⟩
      exact (each _ isPart).2 ⟨parameter, bound, rfl, isBound, isWildcard⟩
    · rintro ⟨each, spared⟩ part isPart
      refine ⟨each part isPart, ?_⟩
      rintro ⟨parameter, bound, rfl, isBound, isWildcard⟩
      exact spared ⟨parameter, bound, isPart, isBound, isWildcard⟩
  rw [apply]
  split
  · next isEmpty =>
    refine (and_iff_left ?_).symm
    rintro ⟨parameter, bound, -, isBound, -⟩
    rw [get?_eq_none_of_isEmpty isEmpty] at isBound
    cases isBound
  · exact kept

theorem areWellFormed_empty : empty.AreWellFormed := by
  intro parameter ty bound
  cases bound

end Bindings

end NominalTypes
