import NominalTypes.Proofs.Hierarchy.Comparison
import NominalTypes.Proofs.Hierarchy.Search

/-!
# Arguments that are accepted

A parameterized type is assignable from another one when its class is and it accepts each argument
of the other one. The rule is that an argument accepts its equal, and as a wildcard whatever lies
within its bounds. The comparison looks at the bounds of a wildcard in any case, and a wildcard does
not lie within its own bounds, so it is not accepted in its own place. Except for these arguments
the comparison follows the rule.
-/

namespace NominalTypes

namespace Ty

/-- A wildcard has at least one upper bound. -/
def HasUpperBound : Ty → Prop
  | .wildcard upper _ => upper ≠ []
  | _ => True

end Ty

namespace Catalog

variable {catalog : Catalog}

/-- Each upper bound is assignable from the type, and the type from each lower bound. -/
def LiesWithin (self : Catalog) (upper lower : List Ty) (ty : Ty) : Prop :=
  (∀ bound ∈ upper, self.assignable bound ty = .ok true) ∧
    ∀ bound ∈ lower, self.assignable ty bound = .ok true

/-- The one argument is equal to the other, or it is a wildcard that the other lies within. -/
def Accepts (self : Catalog) (target source : Ty) : Prop :=
  target = source ∨
    ∃ upper lower, target = .wildcard upper lower ∧ self.LiesWithin upper lower source

/--
The rule for parameterized types: the class is assignable, and each argument of the source is
accepted by the one in its place.
-/
def AcceptsParameterized (self : Catalog) (targetRaw : ClassName) (targets : List Ty)
    (sourceRaw : ClassName) (sources : List Ty) : Prop :=
  self.classAssignable targetRaw sourceRaw = true ∧ targets.length = sources.length ∧
    ∀ pair ∈ targets.zip sources, self.Accepts pair.1 pair.2

/-- A wildcard stands in the same place of both argument lists. -/
def SharesWildcard (targets sources : List Ty) : Prop :=
  ∃ pair ∈ targets.zip sources, pair.1.isWildcard = true ∧ pair.1 = pair.2

/-- Some depth finds a type within bounds exactly if it lies within them. -/
theorem withinBounds_iff_liesWithin {upper lower : List Ty} {ty : Ty} :
    (∃ depth, withinBounds (catalog.assignableWithin depth) upper lower ty = some true) ↔
      catalog.LiesWithin upper lower ty := by
  simp only [withinBounds_eq_true_iff, LiesWithin, assignable_eq_ok_iff]
  constructor
  · rintro ⟨depth, areUpper, areLower⟩
    constructor
    · intro bound isBound
      exact ⟨depth, areUpper bound isBound⟩
    · intro bound isBound
      exact ⟨depth, areLower bound isBound⟩
  · rintro ⟨areUpper, areLower⟩
    rcases Rounds.exists_common areUpper fun _ _ _ le => assignableWithin_of_le le with
        ⟨upperDepth, isUpper⟩
    rcases Rounds.exists_common areLower fun _ _ _ le => assignableWithin_of_le le with
        ⟨lowerDepth, isLower⟩
    refine ⟨max upperDepth lowerDepth, ?_, ?_⟩
    · intro bound isBound
      exact assignableWithin_of_le (Nat.le_max_left _ _) (isUpper bound isBound)
    · intro bound isBound
      exact assignableWithin_of_le (Nat.le_max_right _ _) (isLower bound isBound)

/-- A wildcard is looked at by its bounds, every other argument is compared for equality. -/
theorem argumentAccepts_iff {target source : Ty} :
    (∃ depth, argumentAccepts (catalog.assignableWithin depth) (target, source) = some true) ↔
      (target.isWildcard = false ∧ target = source) ∨
        ∃ upper lower, target = .wildcard upper lower ∧
          catalog.LiesWithin upper lower source := by
  cases target with
  | wildcard upper lower =>
      simp [argumentAccepts, withinBounds_iff_liesWithin, Ty.isWildcard]
  | nominal | array | parameterized | var => simp [argumentAccepts, Ty.isWildcard]

/-- What a wildcard can be assigned to has the wildcard among its parts. -/
theorem mem_parts_of_assignableWithin {target : Ty}
    (bounded : ∀ part ∈ target.parts, part.HasUpperBound) {upper lower : List Ty} {depth : Nat}
    (isAssignable :
      catalog.assignableWithin depth target (.wildcard upper lower) = some true) :
    .wildcard upper lower ∈ target.parts := by
  induction depth generalizing target with
  | zero => cases isAssignable
  | succ depth ih =>
      by_cases same : target = .wildcard upper lower
      · rw [same]
        exact Ty.mem_parts_self _
      · rw [assignableWithin_succ] at isAssignable
        cases target with
        | nominal | array | parameterized | var => cases isAssignable
        | wildcard uppers lowers =>
            rw [comparisonStep_wildcard same] at isAssignable
            have nonempty : uppers ≠ [] := bounded _ (Ty.mem_parts_self _)
            rcases List.exists_mem_of_ne_nil uppers nonempty with ⟨bound, isBound⟩
            have within := (withinBounds_eq_true_iff.1 isAssignable).1 bound isBound
            have boundPart := Ty.mem_parts_of_bound (List.mem_append_left lowers isBound)
            have inBound := ih (fun part isPart => bounded part (Ty.mem_parts_trans isPart boundPart))
              within
            exact Ty.mem_parts_trans inBound boundPart

/--
No wildcard lies within its own bounds: an upper bound that takes the wildcard would have it as a
part.
-/
theorem not_liesWithin_self {upper lower : List Ty}
    (bounded : ∀ part ∈ (Ty.wildcard upper lower).parts, part.HasUpperBound) :
    ¬catalog.LiesWithin upper lower (.wildcard upper lower) := by
  rintro ⟨areUpper, -⟩
  have nonempty : upper ≠ [] := bounded _ (Ty.mem_parts_self _)
  rcases List.exists_mem_of_ne_nil upper nonempty with ⟨bound, isBound⟩
  rcases assignable_eq_ok_iff.1 (areUpper bound isBound) with ⟨depth, isAssignable⟩
  have boundPart := Ty.mem_parts_of_bound (List.mem_append_left lower isBound)
  have isPart : .wildcard upper lower ∈ bound.parts := by
    refine mem_parts_of_assignableWithin ?_ isAssignable
    intro part isPart
    exact bounded part (Ty.mem_parts_trans isPart boundPart)
  have larger := Ty.size_le_of_mem_parts isPart
  have smaller := Ty.size_le_sizeList isBound
  rw [Ty.size] at larger
  omega

/-- What is accepted by the comparison is what the rule accepts, but no wildcard in its own place. -/
theorem argumentAccepts_iff_accepts {target source : Ty}
    (bounded : ∀ part ∈ target.parts, part.HasUpperBound) :
    (∃ depth, argumentAccepts (catalog.assignableWithin depth) (target, source) = some true) ↔
      catalog.Accepts target source ∧ ¬(target.isWildcard = true ∧ target = source) := by
  rw [argumentAccepts_iff]
  constructor
  · rintro (⟨concrete, rfl⟩ | ⟨upper, lower, rfl, within⟩)
    · exact ⟨Or.inl rfl, by simp [concrete]⟩
    · refine ⟨Or.inr ⟨upper, lower, rfl, within⟩, ?_⟩
      rintro ⟨-, rfl⟩
      exact not_liesWithin_self bounded within
  · rintro ⟨rfl | contained, notItself⟩
    · exact Or.inl ⟨by simpa using notItself, rfl⟩
    · exact Or.inr contained

theorem argumentAccepts_of_le {arguments : Ty × Ty} {fewer more : Nat} (le : fewer ≤ more)
    {answer : Bool}
    (given : argumentAccepts (catalog.assignableWithin fewer) arguments = some answer) :
    argumentAccepts (catalog.assignableWithin more) arguments = some answer := by
  have closed : catalog.IsClosed fun _ => True := ⟨by simp, by simp, by simp⟩
  apply closed.argumentAccepts_mono _ trivial trivial given
  intro _ _ _ _ _
  exact assignableWithin_of_le le

/--
Different parameterized types are assignable if their classes are and each argument is accepted at
some depth.
-/
theorem assignable_parameterized_eq_true {targetOwner sourceOwner : Option Ty}
    {targetRaw sourceRaw : ClassName} {targets sources : List Ty}
    (different : Ty.parameterized targetOwner targetRaw targets ≠
      .parameterized sourceOwner sourceRaw sources) :
    catalog.assignable (.parameterized targetOwner targetRaw targets)
        (.parameterized sourceOwner sourceRaw sources) = .ok true ↔
      catalog.classAssignable targetRaw sourceRaw = true ∧ targets.length = sources.length ∧
        ∀ pair ∈ targets.zip sources,
          ∃ depth, argumentAccepts (catalog.assignableWithin depth) pair = some true := by
  rw [assignable_eq_ok_iff]
  constructor
  · rintro ⟨depth, isAssignable⟩
    cases depth with
    | zero => cases isAssignable
    | succ depth =>
        rw [assignableWithin_succ, comparisonStep_parameterized different] at isAssignable
        split at isAssignable
        · next related =>
          have facts : catalog.classAssignable targetRaw sourceRaw = true ∧
              targets.length = sources.length := by
            simpa using related
          rcases facts with ⟨classes, lengths⟩
          refine ⟨classes, lengths, ?_⟩
          intro pair isPair
          exact ⟨depth, allAnswer_eq_true_iff.1 isAssignable pair isPair⟩
        · cases isAssignable
  · rintro ⟨classes, lengths, accepted⟩
    rcases Rounds.exists_common accepted fun _ _ _ le => argumentAccepts_of_le le with
        ⟨depth, answers⟩
    have related : (catalog.classAssignable targetRaw sourceRaw &&
        targets.length = sources.length) = true := by
      simp [classes, lengths]
    refine ⟨depth + 1, ?_⟩
    rw [assignableWithin_succ, comparisonStep_parameterized different, if_pos related]
    exact allAnswer_eq_true_iff.2 answers

/--
A parameterized type is found assignable from another one where the rule says so and no wildcard
stands in the same place of both. So the comparison follows the rule unless the rule accepts
arguments with a wildcard in the same place.
-/
theorem assignable_parameterized_iff {targetOwner sourceOwner : Option Ty}
    {targetRaw sourceRaw : ClassName} {targets sources : List Ty}
    (different : Ty.parameterized targetOwner targetRaw targets ≠
      .parameterized sourceOwner sourceRaw sources)
    (bounded : ∀ target ∈ targets, ∀ part ∈ target.parts, part.HasUpperBound) :
    (catalog.assignable (.parameterized targetOwner targetRaw targets)
          (.parameterized sourceOwner sourceRaw sources) = .ok true ↔
        catalog.AcceptsParameterized targetRaw targets sourceRaw sources ∧
          ¬SharesWildcard targets sources) ∧
      ((catalog.assignable (.parameterized targetOwner targetRaw targets)
            (.parameterized sourceOwner sourceRaw sources) = .ok true ↔
          catalog.AcceptsParameterized targetRaw targets sourceRaw sources) ↔
        ¬(catalog.AcceptsParameterized targetRaw targets sourceRaw sources ∧
          SharesWildcard targets sources)) := by
  have isAssignable : catalog.assignable (.parameterized targetOwner targetRaw targets)
        (.parameterized sourceOwner sourceRaw sources) = .ok true ↔
      catalog.AcceptsParameterized targetRaw targets sourceRaw sources ∧
        ¬SharesWildcard targets sources := by
    have each : ∀ pair ∈ targets.zip sources,
        (∃ depth, argumentAccepts (catalog.assignableWithin depth) pair = some true) ↔
          catalog.Accepts pair.1 pair.2 ∧ ¬(pair.1.isWildcard = true ∧ pair.1 = pair.2) := by
      intro pair isPair
      exact argumentAccepts_iff_accepts (bounded pair.1 (List.of_mem_zip isPair).1)
    rw [assignable_parameterized_eq_true different]
    constructor
    · rintro ⟨classes, lengths, accepted⟩
      refine ⟨⟨classes, lengths, ?_⟩, ?_⟩
      · intro pair isPair
        exact ((each pair isPair).1 (accepted pair isPair)).1
      · rintro ⟨pair, isPair, shared⟩
        exact ((each pair isPair).1 (accepted pair isPair)).2 shared
    · rintro ⟨⟨classes, lengths, accepted⟩, unshared⟩
      refine ⟨classes, lengths, ?_⟩
      intro pair isPair
      apply (each pair isPair).2
      refine ⟨accepted pair isPair, ?_⟩
      intro shared
      exact unshared ⟨pair, isPair, shared⟩
  refine ⟨isAssignable, ?_⟩
  rw [isAssignable]
  constructor
  · rintro follows ⟨accepted, shared⟩
    exact (follows.2 accepted).2 shared
  · intro unshared
    constructor
    · rintro ⟨accepted, -⟩
      exact accepted
    · intro accepted
      refine ⟨accepted, ?_⟩
      intro shared
      exact unshared ⟨accepted, shared⟩

theorem assignable_container_box :
    boxes.assignable (sampleOf "a.Container" .unboundedWildcard) (sampleOf "a.Box" .object) =
      .ok true := by
  have different : sampleOf "a.Container" .unboundedWildcard ≠ sampleOf "a.Box" .object := by
    decide
  have bounded : ∀ target ∈ [Ty.unboundedWildcard], ∀ part ∈ target.parts,
      part.HasUpperBound := by
    simp [Ty.unboundedWildcard, Ty.wildcardOf, Ty.boundsOrObject, Ty.parts, Ty.partsAll, Ty.object,
      Ty.HasUpperBound]
  have within : boxes.LiesWithin [.object] [] .object := by
    exact ⟨List.forall_mem_singleton.2 (by decide +kernel), by simp⟩
  refine (assignable_parameterized_iff different bounded).1.2 ⟨⟨by decide +kernel, rfl, ?_⟩, ?_⟩
  · exact List.forall_mem_singleton.2 (Or.inr ⟨[.object], [], rfl, within⟩)
  · rintro ⟨pair, isPair, -, same⟩
    cases List.mem_singleton.1 isPair
    cases same

/-- The rule accepts a wildcard in its own place, the comparison does not. -/
theorem not_assignable_same_wildcard :
    boxes.IsAcyclic ∧
      sampleOf "a.Container" .unboundedWildcard ≠ sampleOf "a.Box" .unboundedWildcard ∧
      boxes.AcceptsParameterized (.plain "a.Container") [.unboundedWildcard] (.plain "a.Box")
        [.unboundedWildcard] ∧
      boxes.assignable (sampleOf "a.Container" .unboundedWildcard)
        (sampleOf "a.Box" .unboundedWildcard) = .ok false := by
  refine ⟨isAcyclic_boxes, by decide, ⟨by decide +kernel, rfl, ?_⟩, by decide +kernel⟩
  exact List.forall_mem_singleton.2 (Or.inl rfl)

end Catalog

end NominalTypes
