import NominalTypes.Catalog.Owners
import NominalTypes.Proofs.Catalog.Linking

/-!
# Types with the owners of a catalog

A type is the same with the owners of a catalog when all of them are known there already. This is so
for the types that are read in a scope of the catalog. Array types and wildcards are built in the same
way with other owners.
-/

namespace NominalTypes

namespace Catalog

variable (self : Catalog)

/-- An array has the owners of its component. -/
theorem reown_arrayOf (component : Ty) :
    self.reown (.arrayOf component) = .arrayOf (self.reown component) := by
  cases component with
  | array | parameterized | var | wildcard => rfl
  | nominal named =>
      rcases Ty.arrayOf_nominal named with ⟨arrayClass, isClass⟩ | isArray
      · simp only [reown, isClass]
      · simp only [reown, isArray]

theorem reown_arrayOfTimes (dims : Nat) (component : Ty) :
    self.reown (.arrayOfTimes dims component) = .arrayOfTimes dims (self.reown component) := by
  induction dims generalizing component with
  | zero => rfl
  | succ dims ih => rw [Ty.arrayOfTimes, ih, reown_arrayOf]; rfl

theorem reown_wildcardOf (upper lower : List Ty) :
    self.reown (.wildcardOf upper lower) =
      .wildcardOf (upper.map self.reown) (lower.map self.reown) := by
  simp only [Ty.wildcardOf, reown, reownAll_eq_map]
  cases upper with
  | nil => rfl
  | cons first rest => rfl

variable {self}

theorem reownAll_eq_self_iff {types : List Ty} :
    self.reownAll types = types ↔ ∀ ty ∈ types, self.reown ty = ty := by
  induction types with
  | nil => simp [reownAll]
  | cons ty rest ih => simp [reownAll, ih]

theorem knowsOwner_of_mem_owner? {raw : ClassName} :
    ∀ owner ∈ self.owner? raw, ∀ part ∈ owner.parts, self.KnowsOwner part := by
  intro owner isOwner
  rcases Option.map_eq_some_iff.1 isOwner with ⟨outer, -, rfl⟩
  exact List.forall_mem_singleton.2 trivial

/-- A type has the owners of the catalog already exactly when each class in it has. -/
theorem reown_eq_self_iff {ty : Ty} :
    self.reown ty = ty ↔ ∀ part ∈ ty.parts, self.KnowsOwner part := by
  induction ty using Ty.induct with
  | nominal | var => simp [reown, Ty.parts, KnowsOwner]
  | array component ih => simp [reown, Ty.parts, KnowsOwner, ih]
  | parameterized owner raw arguments _ argumentsIh =>
      simp only [reown, Ty.parameterized.injEq, true_and, reownAll_eq_self_iff,
        Ty.forall_parts_parameterized]
      rw [forall₂_congr argumentsIh]
      constructor
      · rintro ⟨rfl, others⟩
        exact ⟨rfl, knowsOwner_of_mem_owner?, others⟩
      · rintro ⟨isOwner, -, others⟩
        exact ⟨isOwner.symm, others⟩
  | wildcard upper lower upperIh lowerIh =>
      simp only [reown, Ty.wildcard.injEq, reownAll_eq_self_iff, Ty.forall_parts_wildcard]
      rw [forall₂_congr upperIh, forall₂_congr lowerIh]
      exact (and_iff_right trivial).symm

/-- A class that takes as many arguments in the other catalog gets its owner from there. -/
theorem KeepsArity.applied? {other : Catalog} (keeps : self.KeepsArity other) {referent : Referent}
    {arguments : List Ty} {element : Ty} (isElement : referent.applied? self arguments = some element) :
    referent.applied? other (arguments.map other.reown) = some (other.reown element) := by
  cases arguments with
  | nil =>
      cases isElement
      cases referent <;> rfl
  | cons first rest =>
      cases referent with
      | ofVariable parameter => cases isElement
      | ofClass raw =>
          simp only [Referent.applied?, Option.ite_none_right_eq_some, Option.some.injEq]
            at isElement
          rcases isElement with ⟨fits, rfl⟩
          have generic : self.arity raw ≠ 0 := by simp [fits]
          have fitsToo : other.arity raw = ((first :: rest).map other.reown).length := by
            rw [keeps raw generic, fits, List.length_map]
          rw [reown, reownAll_eq_map]
          exact if_pos fitsToo

end Catalog

/-- What is read in a scope has the owners of its catalog. -/
theorem Scope.IsDenotable.reown_eq_self {scope : Scope} {ty : Ty}
    (denotable : scope.IsDenotable ty) : scope.catalog.reown ty = ty := by
  induction denotable with
  | nominal | var => rfl
  | parameterized _ _ _ _ _ ih => rw [Catalog.reown, Catalog.reownAll_eq_self_iff.2 ih]; rfl
  | array _ _ _ _ ih => rw [Catalog.reown_arrayOfTimes, ih]
  | wildcard _ _ _ upperIh lowerIh =>
      rw [Catalog.reown_wildcardOf, ← Catalog.reownAll_eq_map, ← Catalog.reownAll_eq_map,
        Catalog.reownAll_eq_self_iff.2 upperIh, Catalog.reownAll_eq_self_iff.2 lowerIh]

end NominalTypes
