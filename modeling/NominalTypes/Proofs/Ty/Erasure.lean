import NominalTypes.Grammar.Parser
import NominalTypes.Ty.Erasure

/-!
# Erasure of array types

An array type erases to an array class with one dimension for each of its layers, as far as a class can
carry them. So the erasure of a type is known from what stands under its generic arrays: the dimensions
are added there, and only if that has an erasure at all can there be too many of them. The canonical
form of an array type makes no difference to its erasure.
-/

namespace NominalTypes

namespace ClassName

/-- The class with a number of further array dimensions, if it can carry as many. -/
def raised (self : ClassName) (dims : Nat) : Except TypeError ClassName :=
  if fits : self.dims + dims ≤ 255 then .ok ⟨self.name, self.dims + dims, fits⟩
  else .error .tooManyDimensions

variable {named : ClassName}

/-- A class can be raised as long as its dimensions have room. -/
theorem raised_eq_ok_iff {dims : Nat} {array : ClassName} :
    named.raised dims = .ok array ↔ array.name = named.name ∧ array.dims = named.dims + dims := by
  rcases array with ⟨name, arrayDims, fits⟩
  simp only [raised]
  split
  · simp [eq_comm]
  · simp only [reduceCtorEq, false_iff, not_and]
    intro _ isSum
    omega

theorem raised_zero (named : ClassName) : named.raised 0 = .ok named :=
  raised_eq_ok_iff.2 ⟨rfl, rfl⟩

theorem raised_one (named : ClassName) : named.raised 1 = named.arrayErasure := by
  simp only [raised, arrayErasure, arrayOf?]
  by_cases room : named.dims < 255
  · simp [room, Nat.succ_le_of_lt room]
  · simp [room, show ¬named.dims + 1 ≤ 255 from room]

/-- Dimensions can be added in two steps: too many in the first one are too many in all. -/
theorem raised_add (named : ClassName) (first second : Nat) :
    named.raised (first + second) = (named.raised first).bind fun array => array.raised second := by
  by_cases fits : named.dims + first ≤ 255
  · simp [raised, fits, Except.bind, Nat.add_assoc]
  · have exceeds : ¬named.dims + (first + second) ≤ 255 := by omega
    simp [raised, fits, exceeds, Except.bind]

theorem exists_raised_one_eq_error_iff :
    (∃ cause, named.raised 1 = .error cause) ↔ named.dims = 255 := by
  have bound := named.dims_le
  by_cases room : named.dims + 1 ≤ 255
  · simp only [raised, room, dif_pos, reduceCtorEq, exists_false, false_iff]
    omega
  · simp only [raised, room, dif_neg, not_false_iff, Except.error.injEq, exists_eq', true_iff]
    omega

end ClassName

namespace Ty

/-- The expression is an array type that is not nominal. -/
def isGenericArray : Ty → Bool
  | .array _ => true
  | _ => false

/-- Generic array types over a core, one around the other. -/
def nested : Nat → Ty → Ty
  | 0, core => core
  | layers + 1, core => .array (nested layers core)

/-- A class that is found for the component of each array type is found with one dimension for each. -/
theorem bind_raised_nested {find : Ty → Except TypeError ClassName}
    (findArray : ∀ component, find (.array component) = (find component).bind ClassName.arrayErasure)
    (layers : Nat) (core : Ty) :
    find (nested layers core) = (find core).bind fun named => named.raised layers := by
  induction layers with
  | zero => cases found : find core <;> simp [nested, found, Except.bind, ClassName.raised_zero]
  | succ layers ih =>
      rw [nested, findArray, ih]
      cases find core with
      | error cause => rfl
      | ok named =>
          simp only [Except.bind, ClassName.raised_add, ClassName.raised_one]

/-- The erasure of an array type is that of its core, raised by the layers. -/
theorem erase_nested (layers : Nat) (core : Ty) :
    (nested layers core).erase = core.erase.bind fun named => named.raised layers :=
  bind_raised_nested (fun _ => rfl) layers core

theorem rawClass_nested (layers : Nat) (core : Ty) :
    (nested layers core).rawClass = core.rawClass.bind fun named => named.raised layers :=
  bind_raised_nested (fun _ => rfl) layers core

/-- The array type over a component erases alike in its canonical form and as a generic array. -/
theorem erase_arrayOf (component : Ty) :
    (arrayOf component).erase = component.erase.bind fun named => named.raised 1 := by
  simp only [ClassName.raised_one]
  cases component with
  | array | parameterized | var | wildcard => rfl
  | nominal named =>
      cases built : named.arrayOf? with
      | none => simp [arrayOf, built, erase]
      | some arrayClass => simp [arrayOf, built, erase, Except.bind, ClassName.arrayErasure]

theorem erase_arrayOfTimes (dims : Nat) (component : Ty) :
    (arrayOfTimes dims component).erase = component.erase.bind fun named => named.raised dims := by
  induction dims generalizing component with
  | zero =>
      cases erased : component.erase <;>
        simp [arrayOfTimes, erased, Except.bind, ClassName.raised_zero]
  | succ dims ih =>
      rw [arrayOfTimes, ih, erase_arrayOf]
      cases component.erase with
      | error cause => rfl
      | ok named => simp only [Except.bind, Nat.add_comm dims, ClassName.raised_add]

/-- A type that names a class itself erases to this class. -/
theorem rawClass_eq_erase {core : Ty} (bare : core.isGenericArray = false)
    (named : core.isVariable = false ∧ core.isWildcard = false) : core.rawClass = core.erase := by
  cases core with
  | nominal | parameterized => rfl
  | array component => cases bare
  | var parameter => cases named.1
  | wildcard upper lower => cases named.2

theorem rawClass_eq_error {core : Ty} (anonymous : core.isVariable = true ∨ core.isWildcard = true) :
    core.rawClass = .error (.noRawType core) := by
  cases core with
  | var | wildcard => rfl
  | nominal | array | parameterized => simp [isVariable, isWildcard] at anonymous

/--
The erasure of an array type with a number of layers over a core: the erasure of the core with as many
more dimensions, if a class can carry them. The class of the type's values is the same for a core that
names a class, and for variables and wildcards there is none. One more layer, in the canonical form,
adds one dimension, unless there is no erasure or no room for it.
-/
theorem erasure_of_layers (layers : Nat) {core : Ty} (bare : core.isGenericArray = false) :
    (nested layers core).erase = (core.erase.bind fun named => named.raised layers) ∧
    (core.isVariable = false ∧ core.isWildcard = false →
      (nested layers core).rawClass = (nested layers core).erase) ∧
    (core.isVariable = true ∨ core.isWildcard = true →
      (nested layers core).rawClass = .error (.noRawType core) ∧
        (TypeError.noRawType core).kind = .precondition) ∧
    (arrayOf (nested layers core)).erase =
      ((nested layers core).erase.bind fun named => named.raised 1) ∧
    ((∃ cause, (arrayOf (nested layers core)).erase = .error cause) ↔
      (∃ cause, (nested layers core).erase = .error cause) ∨
        ∃ named, (nested layers core).erase = .ok named ∧ named.dims = 255) := by
  refine ⟨erase_nested layers core, ?_, ?_, erase_arrayOf _, ?_⟩
  · intro named
    rw [rawClass_nested, erase_nested, rawClass_eq_erase bare named]
  · intro anonymous
    refine ⟨?_, rfl⟩
    rw [rawClass_nested, rawClass_eq_error anonymous]
    rfl
  · rw [erase_arrayOf]
    cases (nested layers core).erase with
    | error cause => simp [Except.bind]
    | ok named => simpa [Except.bind] using ClassName.exists_raised_one_eq_error_iff

/-- Two layers over a class with 253 dimensions are the last that fit; 300 over a wildcard fail for it. -/
theorem erasure_of_layers_boxes :
    let boxes : ClassName := { name := "a.Box", dims := 253 }
    let full : ClassName := { name := "a.Box", dims := 255 }
    (nested 2 (.nominal boxes)).erase = .ok full ∧
      (nested 2 (.nominal boxes)).rawClass = .ok full ∧
      (∃ cause, (arrayOf (nested 2 (.nominal boxes))).erase = .error cause) ∧
      (nested 300 unboundedWildcard).erase = .error (.wildcardErasure unboundedWildcard) := by
  intro boxes full
  have ⟨erased, sameClass, _, _, fails⟩ :=
    erasure_of_layers 2 (show (nominal boxes).isGenericArray = false from rfl)
  have isFull : (nested 2 (.nominal boxes)).erase = .ok full := by
    rw [erased]
    rfl
  refine ⟨isFull, ?_, fails.2 (Or.inr ⟨full, isFull, rfl⟩), ?_⟩
  · rw [sameClass ⟨rfl, rfl⟩, isFull]
  · exact (erasure_of_layers 300 (show unboundedWildcard.isGenericArray = false from rfl)).1

end Ty

end NominalTypes
