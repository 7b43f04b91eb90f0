import Mathlib.Data.Finset.Prod
import NominalTypes.Hierarchy.Assignability
import NominalTypes.Proofs.Catalog.Linking
import NominalTypes.Proofs.Rounds

/-!
# The depth of a comparison

One more level of depth is one more step of the comparison, which looks at pairs of parts of the two
types and of declared supertypes only. A deeper comparison never changes an answer, and as there are
no more such pairs than the depth that is set for a comparison, the type is assignable just if some
depth finds it so.
-/

namespace NominalTypes

section

variable {item : Type} {test : item → Option Bool} {items : List item}

theorem allAnswer_eq_true_iff :
    allAnswer test items = some true ↔ ∀ item ∈ items, test item = some true := by
  induction items with
  | nil => simp [allAnswer]
  | cons first rest ih =>
      rw [List.forall_mem_cons, ← ih, allAnswer]
      cases test first with
      | none => simp
      | some answer => cases answer <;> simp

/-- An answer for all stays the same when the tests of these items give more answers. -/
theorem allAnswer_mono {more : item → Option Bool}
    (below : ∀ item ∈ items, ∀ answer, test item = some answer → more item = some answer)
    {answer : Bool} (given : allAnswer test items = some answer) :
    allAnswer more items = some answer := by
  induction items with
  | nil => exact given
  | cons first rest ih =>
      rcases List.forall_mem_cons.1 below with ⟨isFirst, others⟩
      simp only [allAnswer] at given ⊢
      cases tested : test first with
      | none => simp [tested] at given
      | some firstAnswer =>
          rw [isFirst firstAnswer tested]
          cases firstAnswer with
          | false => simpa [tested] using given
          | true =>
              simp only [tested] at given
              exact ih others given

theorem anyAnswer_mono {more : item → Option Bool}
    (below : ∀ item ∈ items, ∀ answer, test item = some answer → more item = some answer)
    {answer : Bool} (given : anyAnswer test items = some answer) :
    anyAnswer more items = some answer := by
  induction items with
  | nil => exact given
  | cons first rest ih =>
      rcases List.forall_mem_cons.1 below with ⟨isFirst, others⟩
      simp only [anyAnswer] at given ⊢
      cases tested : test first with
      | none => simp [tested] at given
      | some firstAnswer =>
          rw [isFirst firstAnswer tested]
          cases firstAnswer with
          | true => simpa [tested] using given
          | false =>
              simp only [tested] at given
              exact ih others given

end

section

variable {compare more : Ty → Ty → Option Bool} {upper lower : List Ty} {ty : Ty}

theorem withinBounds_eq_true_iff :
    withinBounds compare upper lower ty = some true ↔
      (∀ bound ∈ upper, compare bound ty = some true) ∧
        ∀ bound ∈ lower, compare ty bound = some true := by
  rw [← allAnswer_eq_true_iff, ← allAnswer_eq_true_iff, withinBounds]
  cases allAnswer (fun bound => compare bound ty) upper with
  | none => simp
  | some answer => cases answer <;> simp

theorem withinBounds_mono
    (belowUpper : ∀ bound ∈ upper, ∀ answer,
      compare bound ty = some answer → more bound ty = some answer)
    (belowLower : ∀ bound ∈ lower, ∀ answer,
      compare ty bound = some answer → more ty bound = some answer)
    {answer : Bool} (given : withinBounds compare upper lower ty = some answer) :
    withinBounds more upper lower ty = some answer := by
  simp only [withinBounds] at given ⊢
  cases isUpper : allAnswer (fun bound => compare bound ty) upper with
  | none => simp [isUpper] at given
  | some upperAnswer =>
      rw [allAnswer_mono belowUpper isUpper]
      cases upperAnswer with
      | false => simpa [isUpper] using given
      | true =>
          simp only [isUpper] at given
          exact allAnswer_mono belowLower given

end

namespace Catalog

variable {catalog : Catalog}

/-- One step of the comparison, with a comparison for the pairs that it leads to. -/
def comparisonStep (self : Catalog) (compare : Ty → Ty → Option Bool) (target source : Ty) :
    Option Bool :=
  if target = source then some true
  else
    match target, source with
    | .nominal named, .nominal other => some (self.classAssignable named other)
    | .nominal named, .parameterized _ raw _ => some (self.classAssignable named raw)
    | .parameterized _ targetRaw targets, .parameterized _ sourceRaw sources =>
        if self.classAssignable targetRaw sourceRaw && targets.length = sources.length then
          allAnswer (argumentAccepts compare) (targets.zip sources)
        else some false
    | .wildcard upper lower, other => withinBounds compare upper lower other
    | other, .nominal named =>
        anyAnswer (fun supertype => compare other supertype) (self.supertypes named)
    | _, _ => some false

theorem assignableWithin_succ (depth : Nat) :
    catalog.assignableWithin (depth + 1) =
      catalog.comparisonStep (catalog.assignableWithin depth) := by
  funext target source
  rfl

theorem comparisonStep_wildcard {compare : Ty → Ty → Option Bool} {upper lower : List Ty}
    {source : Ty} (different : .wildcard upper lower ≠ source) :
    catalog.comparisonStep compare (.wildcard upper lower) source =
      withinBounds compare upper lower source := by
  simp only [comparisonStep]
  rw [if_neg different]

/-- Parameterized types are compared by their classes, and then argument by argument. -/
theorem comparisonStep_parameterized {compare : Ty → Ty → Option Bool}
    {targetOwner sourceOwner : Option Ty} {targetRaw sourceRaw : ClassName}
    {targets sources : List Ty}
    (different : Ty.parameterized targetOwner targetRaw targets ≠
      .parameterized sourceOwner sourceRaw sources) :
    catalog.comparisonStep compare (.parameterized targetOwner targetRaw targets)
        (.parameterized sourceOwner sourceRaw sources) =
      if catalog.classAssignable targetRaw sourceRaw && targets.length = sources.length then
        allAnswer (argumentAccepts compare) (targets.zip sources)
      else some false := by
  simp only [comparisonStep]
  rw [if_neg different]

/-- The types that a comparison can lead to from such types are such types again. -/
structure IsClosed (catalog : Catalog) (holds : Ty → Prop) : Prop where
  arguments : ∀ {owner raw arguments}, holds (.parameterized owner raw arguments) →
    ∀ argument ∈ arguments, holds argument
  bounds : ∀ {upper lower}, holds (.wildcard upper lower) → ∀ bound ∈ upper ++ lower, holds bound
  supertypes : ∀ {named}, holds (.nominal named) →
    ∀ supertype ∈ catalog.supertypes named, holds supertype

theorem IsClosed.withinBounds_mono {holds : Ty → Prop} (closed : catalog.IsClosed holds)
    {less more : Ty → Ty → Option Bool}
    (below : ∀ target source, holds target → holds source →
      ∀ answer, less target source = some answer → more target source = some answer)
    {upper lower : List Ty} {ty : Ty} (targetHolds : holds (.wildcard upper lower))
    (sourceHolds : holds ty) {answer : Bool}
    (given : withinBounds less upper lower ty = some answer) :
    withinBounds more upper lower ty = some answer := by
  have bounds := closed.bounds targetHolds
  refine NominalTypes.withinBounds_mono ?_ ?_ given
  · intro bound isBound
    exact below bound ty (bounds bound (List.mem_append_left _ isBound)) sourceHolds
  · intro bound isBound
    exact below ty bound sourceHolds (bounds bound (List.mem_append_right _ isBound))

theorem IsClosed.argumentAccepts_mono {holds : Ty → Prop} (closed : catalog.IsClosed holds)
    {less more : Ty → Ty → Option Bool}
    (below : ∀ target source, holds target → holds source →
      ∀ answer, less target source = some answer → more target source = some answer)
    {target source : Ty} (targetHolds : holds target) (sourceHolds : holds source) {answer : Bool}
    (given : argumentAccepts less (target, source) = some answer) :
    argumentAccepts more (target, source) = some answer := by
  cases target with
  | nominal | array | parameterized | var => exact given
  | wildcard upper lower => exact closed.withinBounds_mono below targetHolds sourceHolds given

/-- A step answers as before when the comparisons that it leads to give more answers. -/
theorem IsClosed.comparisonStep_mono {holds : Ty → Prop} (closed : catalog.IsClosed holds)
    {less more : Ty → Ty → Option Bool}
    (below : ∀ target source, holds target → holds source →
      ∀ answer, less target source = some answer → more target source = some answer)
    {target source : Ty} (targetHolds : holds target) (sourceHolds : holds source) {answer : Bool}
    (given : catalog.comparisonStep less target source = some answer) :
    catalog.comparisonStep more target source = some answer := by
  simp only [comparisonStep] at given ⊢
  split
  · next same => rwa [if_pos same] at given
  · next different =>
    rw [if_neg different] at given
    have climbs : ∀ {named}, source = .nominal named → ∀ {answer},
        anyAnswer (fun supertype => less target supertype) (catalog.supertypes named) =
            some answer →
          anyAnswer (fun supertype => more target supertype) (catalog.supertypes named) =
            some answer := by
      rintro named rfl answer given
      refine anyAnswer_mono ?_ given
      intro supertype isSupertype
      exact below target supertype targetHolds
        (closed.supertypes sourceHolds supertype isSupertype)
    cases target with
    | nominal named => cases source <;> exact given
    | wildcard upper lower => exact closed.withinBounds_mono below targetHolds sourceHolds given
    | array component =>
        cases source with
        | nominal named => exact climbs rfl given
        | array | parameterized | var | wildcard => exact given
    | var parameter =>
        cases source with
        | nominal named => exact climbs rfl given
        | array | parameterized | var | wildcard => exact given
    | parameterized owner raw arguments =>
        cases source with
        | nominal named => exact climbs rfl given
        | array | var | wildcard => exact given
        | parameterized sourceOwner sourceRaw sources =>
            simp only at given ⊢
            split at given
            · next related =>
              rw [if_pos related]
              refine allAnswer_mono ?_ given
              rintro ⟨targetArgument, sourceArgument⟩ isPair answer given
              rcases List.of_mem_zip isPair with ⟨isTarget, isSource⟩
              exact closed.argumentAccepts_mono below
                (closed.arguments targetHolds targetArgument isTarget)
                (closed.arguments sourceHolds sourceArgument isSource) given
            · next unrelated => rwa [if_neg unrelated]

/-- The parts of the two types, of the declared supertypes and of those of array classes. -/
def comparedTypes (self : Catalog) (target source : Ty) : List Ty :=
  target.parts ++ source.parts ++
    (Ty.partsAll self.declaredSupertypes ++
      (ClassName.object.name :: arrayInterfaces).map fun name => .nominal (.plain name))

theorem length_comparedTypes (self : Catalog) (target source : Ty) :
    (self.comparedTypes target source).length =
      target.size + source.size + self.supertypeSize := by
  simp only [comparedTypes, List.length_append, Ty.length_parts, Ty.length_partsAll, supertypeSize,
    List.length_map, List.length_cons, arrayInterfaces, List.length_nil]

theorem mem_comparedTypes_of_part {target source ty part : Ty}
    (member : ty ∈ catalog.comparedTypes target source) (isPart : part ∈ ty.parts) :
    part ∈ catalog.comparedTypes target source := by
  simp only [comparedTypes, List.mem_append, Ty.mem_partsAll, List.mem_map] at member ⊢
  rcases member with (inTarget | inSource) | ⟨declared, isDeclared, within⟩ | ⟨name, isName, rfl⟩
  · exact Or.inl (Or.inl (Ty.mem_parts_trans isPart inTarget))
  · exact Or.inl (Or.inr (Ty.mem_parts_trans isPart inSource))
  · exact Or.inr (Or.inl ⟨declared, isDeclared, Ty.mem_parts_trans isPart within⟩)
  · cases List.mem_singleton.1 isPart
    exact Or.inr (Or.inr ⟨name, isName, rfl⟩)

/-- A comparison leads from compared types to such again. -/
theorem isClosed_comparedTypes (self : Catalog) (target source : Ty) :
    self.IsClosed (· ∈ self.comparedTypes target source) where
  arguments := by
    intro owner raw arguments member argument isArgument
    exact mem_comparedTypes_of_part member (Ty.mem_parts_of_argument isArgument)
  bounds := by
    intro upper lower member bound isBound
    exact mem_comparedTypes_of_part member (Ty.mem_parts_of_bound isBound)
  supertypes := by
    intro named member supertype isSupertype
    refine List.mem_append_right _ ?_
    rcases mem_supertypes_cases isSupertype with ⟨name, isName, rfl⟩ | ⟨info, found, isDeclared⟩
    · exact List.mem_append_right _ (List.mem_map.2 ⟨name, isName, rfl⟩)
    · refine List.mem_append_left _ (Ty.mem_partsAll.2 ⟨supertype, ?_, supertype.mem_parts_self⟩)
      exact List.mem_flatMap.2 ⟨info, mem_classes_of_get? found, isDeclared⟩

/-- The pairs of types that a comparison can lead to. -/
def comparedPairs (self : Catalog) (target source : Ty) : Finset (Ty × Ty) :=
  (self.comparedTypes target source).toFinset ×ˢ (self.comparedTypes target source).toFinset

theorem mem_comparedPairs {target source : Ty} {pair : Ty × Ty} :
    pair ∈ catalog.comparedPairs target source ↔
      pair.1 ∈ catalog.comparedTypes target source ∧
        pair.2 ∈ catalog.comparedTypes target source := by
  simp [comparedPairs]

/-- There are fewer pairs than the depth that is set for the comparison. -/
theorem card_comparedPairs_lt (self : Catalog) (target source : Ty) :
    (self.comparedPairs target source).card < self.comparisonDepth target source := by
  have bounded : (self.comparedTypes target source).toFinset.card ≤
      target.size + source.size + self.supertypeSize := by
    rw [← length_comparedTypes]
    exact List.toFinset_card_le _
  have squared := Nat.mul_le_mul bounded bounded
  rw [comparedPairs, Finset.card_product, comparisonDepth, Nat.pow_eq, Nat.pow_two]
  omega

theorem mem_comparedPairs_self (self : Catalog) (target source : Ty) :
    (target, source) ∈ self.comparedPairs target source := by
  rw [mem_comparedPairs]
  simp [comparedTypes, Ty.mem_parts_self]

/-- The answers that a depth gives to pairs of types. -/
def pairAnswers (self : Catalog) (depth : Nat) (pair : Ty × Ty) : Option Bool :=
  self.assignableWithin depth pair.1 pair.2

/-- A step of the comparison, on pairs of types. -/
def pairStep (self : Catalog) (compare : Ty × Ty → Option Bool) (pair : Ty × Ty) : Option Bool :=
  self.comparisonStep (fun target source => compare (target, source)) pair.1 pair.2

theorem pairAnswers_zero (self : Catalog) (pair : Ty × Ty) : self.pairAnswers 0 pair = none := rfl

theorem pairAnswers_succ (self : Catalog) (depth : Nat) :
    self.pairAnswers (depth + 1) = self.pairStep (self.pairAnswers depth) := rfl

/-- A step on pairs keeps all answers when more pairs have one. -/
theorem pairStep_mono (self : Catalog) (target source : Ty) (less more : Ty × Ty → Option Bool)
    (below : Rounds.IsBelow (self.comparedPairs target source) less more) :
    Rounds.IsBelow (self.comparedPairs target source) (self.pairStep less)
      (self.pairStep more) := by
  intro pair member answer given
  rcases mem_comparedPairs.1 member with ⟨targetMember, sourceMember⟩
  refine (self.isClosed_comparedTypes target source).comparisonStep_mono ?_ targetMember
    sourceMember given
  intro left right isLeft isRight
  exact below (left, right) (mem_comparedPairs.2 ⟨isLeft, isRight⟩)

/-- A deeper comparison gives the same answer. -/
theorem assignableWithin_of_le {fewer more : Nat} (le : fewer ≤ more) {target source : Ty}
    {answer : Bool} (given : catalog.assignableWithin fewer target source = some answer) :
    catalog.assignableWithin more target source = some answer :=
  Rounds.isBelow_of_le catalog.pairAnswers_zero catalog.pairAnswers_succ
    (catalog.pairStep_mono target source) le (target, source)
    (catalog.mem_comparedPairs_self target source) answer given

/-- An answer that some depth gives is given in the depth that is set for the comparison. -/
theorem assignableWithin_comparisonDepth {depth : Nat} {target source : Ty} {answer : Bool}
    (given : catalog.assignableWithin depth target source = some answer) :
    catalog.assignableWithin (catalog.comparisonDepth target source) target source =
      some answer := by
  have settled := Rounds.isBelow_card catalog.pairAnswers_zero catalog.pairAnswers_succ
    (catalog.pairStep_mono target source) depth (target, source)
    (catalog.mem_comparedPairs_self target source) answer given
  exact assignableWithin_of_le (Nat.le_of_lt (catalog.card_comparedPairs_lt target source)) settled

/-- A comparison has the answer that some depth gives. -/
theorem assignable_eq_ok_iff {target source : Ty} {answer : Bool} :
    catalog.assignable target source = .ok answer ↔
      ∃ depth, catalog.assignableWithin depth target source = some answer := by
  constructor
  · intro isAnswer
    simp only [assignable] at isAnswer
    split at isAnswer
    · next found =>
      cases isAnswer
      exact ⟨_, found⟩
    · cases isAnswer
  · rintro ⟨depth, found⟩
    simp only [assignable, assignableWithin_comparisonDepth found]

/-- The comparison never fails for another reason than that it does not end. -/
theorem assignable_eq_error {target source : Ty} {cause : TypeError}
    (failed : catalog.assignable target source = .error cause) : cause = .endless := by
  simp only [assignable] at failed
  split at failed
  · cases failed
  · cases failed
    rfl

end Catalog

end NominalTypes
