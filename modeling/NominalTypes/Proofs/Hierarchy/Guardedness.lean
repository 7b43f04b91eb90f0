import Mathlib.Data.Finset.Lattice.Fold
import NominalTypes.Hierarchy.Mentions
import NominalTypes.Proofs.Hierarchy.ClassOrder
import NominalTypes.Proofs.Hierarchy.Recurrence

/-!
# Comparisons of guarded classes

A comparison goes on in three ways: the target narrows to one of its parts, the sides turn when the
part is a lower bound, or the source climbs to a supertype. What a narrower target leaves is smaller,
and on an acyclic graph no climb goes on for ever. It is the turns that may bring a comparison back
to itself, as they make sources of lower bounds, which climb again. From a guarded class the lower
bounds of its supertypes lead to fewer classes over lower bounds than the class itself, so that each
climb leaves less for the turns after it.
-/

namespace NominalTypes

namespace Catalog

variable {catalog : Catalog} {named mentioned : ClassName}

theorem lowerMentions_subset (self : Catalog) (named : ClassName) :
    self.lowerMentions named ⊆ self.mentions named := by
  intro lower member
  rcases List.mem_flatMap.1 member with ⟨supertype, isSupertype, within⟩
  exact List.mem_flatMap.2 ⟨supertype, isSupertype, supertype.lowerMentions_subset within⟩

/-- The classes that some supertype of the catalog mentions, those of array classes included. -/
def mentionCarrier (self : Catalog) : List ClassName :=
  Ty.mentionsAll self.declaredSupertypes ++
    (ClassName.object.name :: arrayInterfaces).map ClassName.plain

theorem mem_mentionCarrier (isMentioned : mentioned ∈ catalog.mentions named) :
    mentioned ∈ catalog.mentionCarrier := by
  rcases List.mem_flatMap.1 isMentioned with ⟨supertype, isSupertype, within⟩
  rcases mem_supertypes_cases isSupertype with ⟨name, isName, rfl⟩ | ⟨info, found, isDeclared⟩
  · cases List.mem_singleton.1 within
    exact List.mem_append_right _ (List.mem_map_of_mem isName)
  · refine List.mem_append_left _ (Ty.mem_mentionsAll.2 ⟨supertype, ?_, within⟩)
    exact List.mem_flatMap.2 ⟨info, mem_classes_of_get? found, isDeclared⟩

/-- The classes that the class leads to. -/
def ledTo (self : Catalog) (named : ClassName) : List ClassName :=
  closure self.mentions (self.mentionCarrier.length + 1) named

theorem mem_ledTo {reached : ClassName} :
    reached ∈ catalog.ledTo named ↔ catalog.LeadsTo named reached :=
  mem_closure_iff (fun _ _ => mem_mentionCarrier) (Nat.lt_succ_self _)

theorem isGuarded_iff : catalog.IsGuarded named ↔ ∀ reached ∈ catalog.ledTo named,
    ∀ lower ∈ catalog.lowerMentions reached, reached ∉ catalog.ledTo lower := by
  simp only [IsGuarded, mem_ledTo]

instance : Decidable (catalog.IsGuarded named) :=
  decidable_of_iff _ isGuarded_iff.symm

theorem IsGuarded.of_mention (guarded : catalog.IsGuarded named)
    (isMentioned : mentioned ∈ catalog.mentions named) : catalog.IsGuarded mentioned := by
  intro reached path
  exact guarded reached (.step isMentioned path)

/-- The classes that the class leads to over a lower bound. -/
def ledBelow (self : Catalog) (named : ClassName) : List ClassName :=
  ((self.ledTo named).flatMap self.lowerMentions).flatMap self.ledTo

theorem mem_ledBelow {reached : ClassName} :
    reached ∈ catalog.ledBelow named ↔ ∃ lower middle, catalog.LeadsTo named middle ∧
      lower ∈ catalog.lowerMentions middle ∧ catalog.LeadsTo lower reached := by
  simp only [ledBelow, List.mem_flatMap, mem_ledTo]
  constructor
  · rintro ⟨lower, ⟨middle, path, isLower⟩, rest⟩
    exact ⟨lower, middle, path, isLower, rest⟩
  · rintro ⟨lower, middle, path, isLower, rest⟩
    exact ⟨lower, ⟨middle, path, isLower⟩, rest⟩

/-- The number of classes that the class leads to over a lower bound. -/
def lowerRank (self : Catalog) (named : ClassName) : Nat :=
  (self.ledBelow named).toFinset.card

theorem ledBelow_subset (isMentioned : mentioned ∈ catalog.mentions named) :
    (catalog.ledBelow mentioned).toFinset ⊆ (catalog.ledBelow named).toFinset := by
  intro reached member
  rcases mem_ledBelow.1 (List.mem_toFinset.1 member) with ⟨lower, middle, path, rest⟩
  exact List.mem_toFinset.2 (mem_ledBelow.2 ⟨lower, middle, .step isMentioned path, rest⟩)

/-- What a class mentions leads to no more classes over lower bounds. -/
theorem lowerRank_le (isMentioned : mentioned ∈ catalog.mentions named) :
    catalog.lowerRank mentioned ≤ catalog.lowerRank named :=
  Finset.card_le_card (ledBelow_subset isMentioned)

/-- A class in a lower bound of a guarded class is led to over it, but does not lead to itself so. -/
theorem IsGuarded.lowerRank_lt (guarded : catalog.IsGuarded named) {lower : ClassName}
    (isLower : lower ∈ catalog.lowerMentions named) :
    catalog.lowerRank lower < catalog.lowerRank named := by
  have isMentioned := catalog.lowerMentions_subset named isLower
  apply Finset.card_lt_card
  rw [Finset.ssubset_iff_of_subset (ledBelow_subset isMentioned)]
  refine ⟨lower, ?_, ?_⟩
  · exact List.mem_toFinset.2 (mem_ledBelow.2 ⟨lower, named, .refl named, isLower, .refl lower⟩)
  · intro member
    rcases mem_ledBelow.1 (List.mem_toFinset.1 member) with ⟨next, middle, path, isNext, rest⟩
    exact guarded.of_mention isMentioned middle path next isNext (rest.trans path)

/-- The class is guarded and leads to fewer classes over lower bounds than the rank says. -/
structure RanksBelow (catalog : Catalog) (rank : Nat) (named : ClassName) : Prop where
  guarded : catalog.IsGuarded named
  less : catalog.lowerRank named < rank

theorem RanksBelow.of_mention {rank : Nat} (below : catalog.RanksBelow rank named)
    (isMentioned : mentioned ∈ catalog.mentions named) : catalog.RanksBelow rank mentioned where
  guarded := below.guarded.of_mention isMentioned
  less := Nat.lt_of_le_of_lt (lowerRank_le isMentioned) below.less

/-- The lower bounds of a guarded class rank below it. -/
theorem IsGuarded.ranksBelow (guarded : catalog.IsGuarded named) {lower : ClassName}
    (isLower : lower ∈ catalog.lowerMentions named) :
    catalog.RanksBelow (catalog.lowerRank named) lower where
  guarded := guarded.of_mention (catalog.lowerMentions_subset named isLower)
  less := guarded.lowerRank_lt isLower

/-- A part of the target is compared with the source or with a part of it. -/
structure Narrows (pair other : Ty × Ty) : Prop where
  targetSize : other.1.size < pair.1.size
  sourceSize : other.2.size ≤ pair.2.size
  targetLower : other.1.lowerMentions ⊆ pair.1.lowerMentions
  source : other.2.mentions ⊆ pair.2.mentions
  sourceLower : other.2.lowerMentions ⊆ pair.2.lowerMentions

/-- The source or a part of it becomes the target, a lower bound of the target the source. -/
structure Turns (pair other : Ty × Ty) : Prop where
  size : other.1.size + other.2.size < pair.1.size + pair.2.size
  target : other.1.lowerMentions ⊆ pair.2.lowerMentions
  source : other.2.mentions ⊆ pair.1.lowerMentions

/-- The source is a class, in whose place a supertype is compared. -/
structure Climbs (catalog : Catalog) (pair other : Ty × Ty) : Prop where
  target : other.1 = pair.1
  source : ∃ named, pair.2 = .nominal named ∧ other.2 ∈ catalog.supertypes named

theorem Narrows.trans {pair middle other : Ty × Ty} (first : Narrows pair middle)
    (second : Narrows middle other) : Narrows pair other where
  targetSize := Nat.lt_trans second.targetSize first.targetSize
  sourceSize := Nat.le_trans second.sourceSize first.sourceSize
  targetLower := List.Subset.trans second.targetLower first.targetLower
  source := List.Subset.trans second.source first.source
  sourceLower := List.Subset.trans second.sourceLower first.sourceLower

theorem Narrows.turns {pair middle other : Ty × Ty} (first : Narrows pair middle)
    (second : Turns middle other) : Turns pair other where
  size := by
    have := second.size
    have := first.targetSize
    have := first.sourceSize
    omega
  target := List.Subset.trans second.target first.sourceLower
  source := List.Subset.trans second.source first.targetLower

/-- An upper bound of a wildcard narrows a comparison, and a lower one turns it. -/
theorem narrows_or_turns_of_mem_boundPairs {upper lower : List Ty} {source : Ty} {pair : Ty × Ty}
    (member : pair ∈ boundPairs upper lower source) :
    Narrows (.wildcard upper lower, source) pair ∨ Turns (.wildcard upper lower, source) pair := by
  rcases mem_boundPairs.1 member with ⟨bound, isBound, rfl⟩ | ⟨bound, isBound, rfl⟩
  · left
    refine ⟨?_, le_refl _, ?_, List.Subset.refl _, List.Subset.refl _⟩
    · have smaller := Ty.size_le_sizeList isBound
      simp only [Ty.size]
      omega
    · intro named inBound
      exact List.mem_append_left _ (Ty.mem_lowerMentionsAll.2 ⟨bound, isBound, inBound⟩)
  · right
    refine ⟨?_, List.Subset.refl _, ?_⟩
    · have smaller := Ty.size_le_sizeList isBound
      simp only [Ty.size]
      omega
    · intro named inBound
      exact List.mem_append_right _ (Ty.mem_mentionsAll.2 ⟨bound, isBound, inBound⟩)

theorem narrows_of_arguments {targetOwner sourceOwner : Option Ty} {targetRaw sourceRaw : ClassName}
    {targets sources : List Ty} {target source : Ty} (isTarget : target ∈ targets)
    (isSource : source ∈ sources) :
    Narrows (.parameterized targetOwner targetRaw targets,
      .parameterized sourceOwner sourceRaw sources) (target, source) where
  targetSize := by
    have smaller := Ty.size_le_sizeList isTarget
    simp only [Ty.size]
    omega
  sourceSize := by
    have smaller := Ty.size_le_sizeList isSource
    simp only [Ty.size]
    omega
  targetLower := fun _ within => Ty.mem_lowerMentionsAll.2 ⟨target, isTarget, within⟩
  source := fun _ within => Ty.mem_mentionsAll.2 ⟨source, isSource, within⟩
  sourceLower := fun _ within => Ty.mem_lowerMentionsAll.2 ⟨source, isSource, within⟩

/-- A comparison goes on by narrowing, turning or climbing. -/
theorem Asks.narrows_or_turns_or_climbs {pair other : Ty × Ty} (asks : catalog.Asks pair other) :
    Narrows pair other ∨ Turns pair other ∨ catalog.Climbs pair other := by
  cases asks with
  | bound different isNext passed =>
      have isAsked := isNext ▸ List.mem_append_right _ List.mem_cons_self
      rcases narrows_or_turns_of_mem_boundPairs isAsked with narrows | turns
      · exact Or.inl narrows
      · exact Or.inr (Or.inl turns)
  | argument different classes lengths isArgument accepted isNext passed =>
      have isPair := isArgument ▸ List.mem_append_right _ List.mem_cons_self
      have isAsked := isNext ▸ List.mem_append_right _ List.mem_cons_self
      rcases List.of_mem_zip isPair with ⟨isTarget, isSource⟩
      rcases narrows_or_turns_of_mem_boundPairs isAsked with narrows | turns
      · exact Or.inl ((narrows_of_arguments isTarget isSource).trans narrows)
      · exact Or.inr (Or.inl ((narrows_of_arguments isTarget isSource).turns turns))
  | supertype concrete generic isNext refused =>
      refine Or.inr (Or.inr ⟨rfl, _, rfl, ?_⟩)
      simp [isNext]

/-- The ranks are above those of the classes that the sides of a comparison can climb from. -/
structure IsRanked (catalog : Catalog) (targetRank sourceRank : Nat) (pair : Ty × Ty) : Prop where
  target : ∀ named ∈ pair.1.lowerMentions, catalog.RanksBelow targetRank named
  source : ∀ named ∈ pair.2.mentions, catalog.RanksBelow sourceRank named

theorem IsRanked.sourceLower {targetRank sourceRank : Nat} {pair : Ty × Ty}
    (ranked : catalog.IsRanked targetRank sourceRank pair) :
    ∀ named ∈ pair.2.lowerMentions, catalog.RanksBelow sourceRank named := by
  intro named member
  exact ranked.source named (pair.2.lowerMentions_subset member)

theorem IsRanked.narrow {targetRank sourceRank : Nat} {pair other : Ty × Ty}
    (ranked : catalog.IsRanked targetRank sourceRank pair) (narrows : Narrows pair other) :
    catalog.IsRanked targetRank sourceRank other where
  target := fun named member => ranked.target named (narrows.targetLower member)
  source := fun named member => ranked.source named (narrows.source member)

/-- A turn exchanges the ranks, and that of the new source may be lower. -/
theorem IsRanked.turn {targetRank sourceRank lowerRank : Nat} {pair other : Ty × Ty}
    (ranked : catalog.IsRanked targetRank sourceRank pair)
    (below : ∀ named ∈ pair.2.lowerMentions, catalog.RanksBelow lowerRank named)
    (turns : Turns pair other) : catalog.IsRanked lowerRank targetRank other where
  target := fun named member => below named (turns.target member)
  source := fun named member => ranked.target named (turns.source member)

/-- After a climb the lower bounds of the source rank below the class that was climbed from. -/
theorem IsRanked.climb {targetRank sourceRank : Nat} {pair other : Ty × Ty}
    (ranked : catalog.IsRanked targetRank sourceRank pair) (climbs : catalog.Climbs pair other) :
    catalog.IsRanked targetRank sourceRank other ∧ ∃ less < sourceRank,
      ∀ named ∈ other.2.lowerMentions, catalog.RanksBelow less named := by
  rcases climbs with ⟨sameTarget, climbed, isSource, isSupertype⟩
  have start : catalog.RanksBelow sourceRank climbed := by
    apply ranked.source climbed
    simp [isSource, Ty.mentions]
  refine ⟨⟨sameTarget ▸ ranked.target, ?_⟩, catalog.lowerRank climbed, start.less, ?_⟩
  · intro named member
    exact start.of_mention (List.mem_flatMap.2 ⟨other.2, isSupertype, member⟩)
  · intro named member
    exact start.guarded.ranksBelow (List.mem_flatMap.2 ⟨other.2, isSupertype, member⟩)

/-- The number of climbs that a type can make at most, one after the other. -/
def climbHeight (self : Catalog) : Ty → Nat
  | .nominal named => self.height named + 1
  | _ => 0

/-- On an acyclic catalog each climb leaves fewer climbs. -/
theorem climbHeight_lt (linked : catalog.HasLinkedSupertypes) (acyclic : catalog.IsAcyclic)
    {pair other : Ty × Ty} (climbs : catalog.Climbs pair other) :
    catalog.climbHeight other.2 < catalog.climbHeight pair.2 := by
  rcases climbs with ⟨-, climbed, isSource, isSupertype⟩
  rcases linked.exists_erase isSupertype with ⟨raw, isClass, edge, -⟩
  have lower := height_lt acyclic edge
  have isRaw := erase_of_supertypeClass? isClass
  rw [isSource]
  cases isOther : other.2 with
  | nominal supertype =>
      rw [isOther] at isRaw
      cases isRaw
      simp only [climbHeight]
      omega
  | array | parameterized | var | wildcard => simp [climbHeight]

/--
When a turn of the comparison would leave ranks of a smaller total, all that is left is to narrow
the target and to climb, and for the same target each climb starts from a lower class. A class has
no lower bounds, so that a turn after a climb is bounded by the class climbed from.
-/
theorem answers_of_lowerRank (linked : catalog.HasLinkedSupertypes) (acyclic : catalog.IsAcyclic)
    {total : Nat} (turned : ∀ targetRank sourceRank pair, targetRank + sourceRank < total →
      catalog.IsRanked targetRank sourceRank pair → catalog.Answers pair)
    {targetRank sourceRank : Nat} (bounded : targetRank + sourceRank ≤ total) (pair : Ty × Ty)
    (ranked : catalog.IsRanked targetRank sourceRank pair) {less : Nat}
    (fewer : targetRank + less < total)
    (below : ∀ named ∈ pair.2.lowerMentions, catalog.RanksBelow less named) :
    catalog.Answers pair := by
  apply answers_of_asked
  intro other asks
  rcases asks.narrows_or_turns_or_climbs with narrows | turns | climbs
  · have smaller := narrows.targetSize
    apply answers_of_lowerRank linked acyclic turned bounded other (ranked.narrow narrows) fewer
    intro named member
    exact below named (narrows.sourceLower member)
  · exact turned less targetRank other (by omega) (ranked.turn below turns)
  · have same := climbs.target
    have lower := climbHeight_lt linked acyclic climbs
    rcases ranked.climb climbs with ⟨climbedRanked, climbedRank, isLess, climbedBelow⟩
    exact answers_of_lowerRank linked acyclic turned bounded other climbedRanked (by omega)
      climbedBelow
termination_by (pair.1.size, catalog.climbHeight pair.2)
decreasing_by
  · exact Prod.Lex.left _ _ smaller
  · rw [same]
    exact Prod.Lex.right _ lower

/--
As long as no class is climbed from, the sizes decrease, since a turn exchanges the ranks and keeps
their total; the first climb lowers the ranks.
-/
theorem answers_of_isRanked (linked : catalog.HasLinkedSupertypes) (acyclic : catalog.IsAcyclic)
    {total targetRank sourceRank : Nat} (bounded : targetRank + sourceRank ≤ total) (pair : Ty × Ty)
    (ranked : catalog.IsRanked targetRank sourceRank pair) : catalog.Answers pair := by
  apply answers_of_asked
  intro other asks
  rcases asks.narrows_or_turns_or_climbs with narrows | turns | climbs
  · have smaller := Nat.add_lt_add_of_lt_of_le narrows.targetSize narrows.sourceSize
    exact answers_of_isRanked linked acyclic bounded other (ranked.narrow narrows)
  · have smaller := turns.size
    have exchanged : sourceRank + targetRank ≤ total := by omega
    have turnedRanked := ranked.turn ranked.sourceLower turns
    exact answers_of_isRanked linked acyclic exchanged other turnedRanked
  · rcases ranked.climb climbs with ⟨climbedRanked, climbedRank, isLess, climbedBelow⟩
    refine answers_of_lowerRank linked acyclic ?_ bounded other climbedRanked (by omega) climbedBelow
    intro turnedTarget turnedSource turned isTotal turnedRanked
    exact answers_of_isRanked linked acyclic (le_refl _) turned turnedRanked
termination_by (total, pair.1.size + pair.2.size)
decreasing_by
  · exact Prod.Lex.right _ smaller
  · exact Prod.Lex.right _ smaller
  · exact Prod.Lex.left _ _ isTotal

/-- On an acyclic graph a comparison ends if all classes that it can climb from are guarded. -/
theorem answers_of_isGuarded (linked : catalog.HasLinkedSupertypes) (acyclic : catalog.IsAcyclic)
    {target source : Ty}
    (guarded : ∀ start ∈ target.lowerMentions ++ source.mentions, catalog.IsGuarded start) :
    catalog.Answers (target, source) := by
  let starts := (target.lowerMentions ++ source.mentions).toFinset
  let rank := starts.sup catalog.lowerRank + 1
  have below : ∀ start ∈ target.lowerMentions ++ source.mentions,
      catalog.RanksBelow rank start := by
    intro start member
    refine ⟨guarded start member, Nat.lt_succ_of_le ?_⟩
    exact Finset.le_sup (f := catalog.lowerRank) (List.mem_toFinset.2 member)
  have ranked : catalog.IsRanked rank rank (target, source) := by
    constructor
    · intro named member
      exact below named (List.mem_append_left _ member)
    · intro named member
      exact below named (List.mem_append_right _ member)
  exact answers_of_isRanked linked acyclic (le_refl (rank + rank)) (target, source) ranked

/--
A comparison ends in some depth just if it leads to none that asks for itself again. Acyclic
supertypes alone do not suffice for that, but they do if the classes are guarded which the source
mentions and which the target mentions in lower bounds.
-/
theorem exists_assignableWithin_iff (loaded : catalog.IsLoaded) (target source : Ty) :
    ((∃ depth answer, catalog.assignableWithin depth target source = some answer) ↔
        ¬catalog.Recurs (target, source)) ∧
      (catalog.IsAcyclic →
        (∀ start ∈ target.lowerMentions ++ source.mentions, catalog.IsGuarded start) →
          ∃ depth answer, catalog.assignableWithin depth target source = some answer) := by
  have answers : catalog.Answers (target, source) ↔ ¬catalog.Recurs (target, source) := answers_iff
  refine ⟨answers, ?_⟩
  intro acyclic guarded
  exact answers_of_isGuarded loaded.hasLinkedSupertypes acyclic guarded

/-- An interface of orders, and classes in a lower bound of themselves and of another class. -/
def orderDocument : Document where
  classes := [
    { name := "a.Order", kind := .interface, typeParameters := [{ name := "T" }] },
    { name := "a.Day", interfaces := ["Order<Day>"] },
    { name := "a.Week", interfaces := ["Order<Order<? super Day>>"] },
    { name := "a.Knot", interfaces := ["Order<Order<? super Knot>>"] }]

/-- The catalog of these classes. -/
def orders : Catalog := (Catalog.empty.extend orderDocument).toOption.getD .empty

/-- The orders of a class or of one of its supertypes. -/
def orderAbove (name : String) : Ty :=
  sampleOf "a.Order" (.wildcard [.object] [.nominal (.plain name)])

theorem isLoaded_orders : orders.IsLoaded := isLoaded_getD orderDocument

theorem isAcyclic_orders : orders.IsAcyclic := by
  rw [isLoaded_orders.hasLinkedSupertypes.isAcyclic_iff]
  decide +kernel

theorem exists_assignableWithin_week :
    (∀ start ∈ (orderAbove "a.Week").lowerMentions ++ (Ty.nominal (.plain "a.Week")).mentions,
      orders.IsGuarded start) ∧
      ∃ depth answer,
        orders.assignableWithin depth (orderAbove "a.Week") (.nominal (.plain "a.Week")) =
          some answer := by
  have guarded : ∀ start ∈
      (orderAbove "a.Week").lowerMentions ++ (Ty.nominal (.plain "a.Week")).mentions,
        orders.IsGuarded start := by
    decide +kernel
  refine ⟨guarded, ?_⟩
  exact (exists_assignableWithin_iff isLoaded_orders _ _).2 isAcyclic_orders guarded

/-- To take a knot, orders above knots have to take the orders of them, and these the knot. -/
theorem recurs_knot : orders.Recurs (orderAbove "a.Knot", .nominal (.plain "a.Knot")) := by
  let knot := Ty.nominal (.plain "a.Knot")
  let ordered := sampleOf "a.Order" (orderAbove "a.Knot")
  have climb : orders.Asks (orderAbove "a.Knot", knot) (orderAbove "a.Knot", ordered) := by
    have isNext : orders.supertypes (.plain "a.Knot") = [.object] ++ ordered :: [] := by
      decide +kernel
    exact .supertype rfl rfl isNext (List.forall_mem_singleton.2 (by decide +kernel))
  have turn : orders.Asks (orderAbove "a.Knot", ordered) (orderAbove "a.Knot", knot) := by
    have isArgument : [Ty.wildcard [.object] [knot]].zip [orderAbove "a.Knot"] =
        [] ++ (.wildcard [.object] [knot], orderAbove "a.Knot") :: [] := rfl
    have isNext : boundPairs [.object] [knot] (orderAbove "a.Knot") =
        [(.object, orderAbove "a.Knot")] ++ (orderAbove "a.Knot", knot) :: [] := rfl
    refine .argument (by decide) (by decide +kernel) rfl isArgument (List.forall_mem_nil _) isNext ?_
    exact List.forall_mem_singleton.2 (by decide +kernel)
  exact ⟨_, .refl, .tail (.single climb) turn⟩

/-- On an acyclic graph of supertypes a comparison of parsed types can go on for ever. -/
theorem not_assignableWithin_knot :
    orders.IsLoaded ∧ orders.IsAcyclic ∧
      ({ catalog := orders } : Scope).parse 4 "a.Order<? super a.Knot>" =
        .ok (orderAbove "a.Knot") ∧
      ({ catalog := orders } : Scope).parse 4 "a.Knot" = .ok (.nominal (.plain "a.Knot")) ∧
      ∀ depth, orders.assignableWithin depth (orderAbove "a.Knot") (.nominal (.plain "a.Knot")) =
        none := by
  refine ⟨isLoaded_orders, isAcyclic_orders, by decide +kernel, by decide +kernel, ?_⟩
  intro depth
  cases given : orders.assignableWithin depth (orderAbove "a.Knot") (.nominal (.plain "a.Knot")) with
  | none => rfl
  | some answer => exact absurd recurs_knot (answers_iff.1 ⟨depth, answer, given⟩)

end Catalog

end NominalTypes
