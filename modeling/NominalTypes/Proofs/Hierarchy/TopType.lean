import NominalTypes.Proofs.Hierarchy.ClassOrder
import NominalTypes.Proofs.Hierarchy.ResolvedSupertype
import NominalTypes.Proofs.Ty.Erasure
import NominalTypes.Proofs.TypeToken.Canonicity

/-!
# The type that accepts references

Every reference type that is a class or an applied class is assignable to `java.lang.Object`, whether it
is declared or not. For generic array types the comparison has no rule, since they are no classes and
declare no supertypes: they are assignable to themselves and to wildcards only. So a nominal array
type is accepted by `java.lang.Object`, but a generic one is not.
-/

namespace NominalTypes

namespace Catalog

variable {catalog : Catalog}

/-- Every class but the primitive types is assignable to `java.lang.Object`. -/
theorem classAssignable_object (catalog : Catalog) (named : ClassName) :
    catalog.classAssignable .object named = !named.isPrimitive := by
  have isReference : ClassName.object.isPrimitive = false := by decide
  by_cases same : ClassName.object = named
  · rw [← same, isReference]
    simp [classAssignable]
  · have isElement : ClassName.object.element = .object := rfl
    have accepts : catalog.classAssignable .object named = true ↔ named.isPrimitive = false := by
      rw [classAssignable_of_dims_le same (Nat.zero_le _)]
      have notWidened : ¬Widens .object named := by
        rintro ⟨wide, narrow, isWide, -, -⟩
        rw [ClassName.isPrimitive_eq_false_iff.1 isReference] at isWide
        cases isWide
      have accepted : catalog.AcceptsReference .object named ↔ named.isPrimitive = false := by
        have whole : named.strip ClassName.object.dims = named := ClassName.strip_zero named
        have fewer : ClassName.object.dims ≤ named.dims := Nat.zero_le _
        simp [AcceptsReference, isElement, isReference, whole, fewer]
      rw [or_iff_right notWidened, accepted]
    cases isPrimitive : named.isPrimitive with
    | false => exact accepts.2 isPrimitive
    | true => simpa [isPrimitive] using accepts

theorem assignable_nominal (catalog : Catalog) (target source : ClassName) :
    catalog.assignable (.nominal target) (.nominal source) =
      .ok (catalog.classAssignable target source) := by
  by_cases same : target = source
  · rw [same, assignable_self]
    simp [classAssignable]
  · exact assignable_eq_ok_iff.2 ⟨1, by simp [assignableWithin, same]⟩

/-- Wildcards apart, a generic array type is assignable to nothing but itself. -/
theorem assignable_array (catalog : Catalog) {target : Ty} (concrete : target.isWildcard = false)
    (component : Ty) :
    catalog.assignable target (.array component) = .ok (decide (target = .array component)) := by
  by_cases same : target = .array component
  · rw [same, assignable_self]
    simp
  · refine assignable_eq_ok_iff.2 ⟨1, ?_⟩
    cases target with
    | wildcard upper lower => cases concrete
    | nominal | array | parameterized | var => simp [assignableWithin, same]

/--
A type for which there is a token is assignable to `java.lang.Object` just if it is no generic array
type and its class is not primitive.
-/
theorem assignable_object_of_token {mint later : Mint} {ty : Ty} {token : TypeToken}
    (issued : mint.token ty = .ok (token, later)) :
    catalog.assignable .object ty = .ok (!ty.isGenericArray && !token.raw.isPrimitive) := by
  rcases bind_eq_ok.1 issued with ⟨raw, isClass, isToken⟩
  cases isToken
  have ⟨isNoVariable, isNoWildcard, erased⟩ := Ty.concreteClass_eq_ok_iff.1 isClass
  cases ty with
  | var parameter => cases isNoVariable
  | wildcard upper lower => cases isNoWildcard
  | nominal named =>
      cases erased
      rw [Ty.object, assignable_nominal, classAssignable_object]
      rfl
  | parameterized owner named arguments =>
      cases erased
      rw [Ty.object, assignable_nominal_parameterized, classAssignable_object]
      rfl
  | array component =>
      rw [assignable_array catalog rfl]
      rfl

/-- Boxes and nominal arrays of them are accepted, and generic arrays of them are not. -/
theorem assignable_object_boxes :
    let applied : Ty := sampleOf "a.Box" .unboundedWildcard
    let nominals : ClassName := { name := "a.Box", dims := 1 }
    (Mint.token {} applied = .ok (⟨applied, .plain "a.Box", 0⟩, ⟨1⟩) ∧
        boxes.assignable .object applied = .ok true) ∧
      (Mint.token {} (.nominal nominals) = .ok (⟨.nominal nominals, nominals, 0⟩, ⟨1⟩) ∧
        boxes.assignable .object (.nominal nominals) = .ok true) ∧
      Mint.token {} (.array applied) = .ok (⟨.array applied, nominals, 0⟩, ⟨1⟩) ∧
        boxes.assignable .object (.array applied) = .ok false := by
  intro applied nominals
  have issued : Mint.token {} applied = .ok (⟨applied, .plain "a.Box", 0⟩, ⟨1⟩) := rfl
  have issuedNominals :
      Mint.token {} (.nominal nominals) = .ok (⟨.nominal nominals, nominals, 0⟩, ⟨1⟩) := rfl
  have issuedArray :
      Mint.token {} (.array applied) = .ok (⟨.array applied, nominals, 0⟩, ⟨1⟩) := rfl
  exact ⟨⟨issued, assignable_object_of_token issued⟩,
    ⟨issuedNominals, assignable_object_of_token issuedNominals⟩,
    issuedArray, assignable_object_of_token issuedArray⟩

/-- An array of boxes has a token for a reference type, and is not assignable to `java.lang.Object`. -/
theorem not_assignable_object_array :
    let arrays : Ty := .array (sampleOf "a.Box" .unboundedWildcard)
    boxes.IsLoaded ∧
      (∃ token later, Mint.token {} arrays = .ok (token, later) ∧ token.raw.isPrimitive = false) ∧
      boxes.assignable .object arrays = .ok false := by
  intro arrays
  exact ⟨isLoaded_boxes, ⟨_, _, rfl, by decide⟩, by decide +kernel⟩

end Catalog

end NominalTypes
