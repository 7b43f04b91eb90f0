import Mathlib.Data.Fintype.EquivFin
import Mathlib.Logic.Relation
import NominalTypes.Proofs.Hierarchy.Containment

/-!
# Comparisons that come back to themselves

To answer a comparison, some comparisons of parts and supertypes are asked in turn: one bound or
argument after the other as long as all hold, one supertype after the other as long as none does.
Each of them needs less depth than the comparison that asks it. As there are finitely many pairs of
types to ask, a comparison is answered just if none that it leads to asks for itself again.
-/

namespace NominalTypes

section

variable {item : Type} {test : Nat → item → Option Bool} {items earlier later : List item}

/-- More depth changes no answer of the test. -/
structure Persists (test : Nat → item → Option Bool) : Prop where
  deeper : ∀ {fewer more : Nat} {asked : item} {answer : Bool}, fewer ≤ more →
    test fewer asked = some answer → test more asked = some answer

theorem Persists.not (persists : Persists test) :
    Persists fun depth asked => (test depth asked).map (! ·) := by
  constructor
  intro fewer more asked answer le given
  rcases Option.map_eq_some_iff.1 given with ⟨opposite, isOpposite, rfl⟩
  simp [persists.deeper le isOpposite]

/-- Answers of different depths are the same. -/
theorem Persists.answer_eq (persists : Persists test) {left right : Nat} {asked : item}
    {leftAnswer rightAnswer : Bool} (isLeft : test left asked = some leftAnswer)
    (isRight : test right asked = some rightAnswer) : leftAnswer = rightAnswer := by
  have fromLeft := persists.deeper (Nat.le_max_left left right) isLeft
  have fromRight := persists.deeper (Nat.le_max_right left right) isRight
  rw [fromLeft] at fromRight
  exact Option.some.inj fromRight

/-- If each item that is come to has an answer in some depth, so has the list. -/
theorem Persists.exists_allAnswer (persists : Persists test)
    (each : ∀ earlier asked later, items = earlier ++ asked :: later →
      (∀ other ∈ earlier, ∃ depth, test depth other = some true) →
        ∃ depth answer, test depth asked = some answer) :
    ∃ depth answer, allAnswer (test depth) items = some answer := by
  induction items with
  | nil => exact ⟨0, true, rfl⟩
  | cons first rest ih =>
      rcases each [] first rest rfl (by simp) with ⟨firstDepth, firstAnswer, isFirst⟩
      cases firstAnswer with
      | false => exact ⟨firstDepth, false, by simp [allAnswer, isFirst]⟩
      | true =>
          have others : ∃ depth answer, allAnswer (test depth) rest = some answer := by
            apply ih
            intro earlier asked later divided passed
            refine each (first :: earlier) asked later (by rw [divided]; rfl) ?_
            exact List.forall_mem_cons.2 ⟨⟨firstDepth, isFirst⟩, passed⟩
          rcases others with ⟨restDepth, answer, isRest⟩
          refine ⟨max firstDepth restDepth, answer, ?_⟩
          simp only [allAnswer, persists.deeper (Nat.le_max_left firstDepth restDepth) isFirst]
          refine allAnswer_mono ?_ isRest
          intro other _ otherAnswer given
          exact persists.deeper (Nat.le_max_right firstDepth restDepth) given

/-- An item that is come to has an answer in each depth in which the list has one. -/
theorem Persists.exists_of_allAnswer (persists : Persists test) {asked : item}
    (passed : ∀ other ∈ earlier, ∃ depth, test depth other = some true) {depth : Nat}
    {answer : Bool} (given : allAnswer (test depth) (earlier ++ asked :: later) = some answer) :
    ∃ askedAnswer, test depth asked = some askedAnswer := by
  induction earlier with
  | nil =>
      cases tested : test depth asked with
      | none => simp [allAnswer, tested] at given
      | some askedAnswer => exact ⟨askedAnswer, rfl⟩
  | cons first rest ih =>
      rcases List.forall_mem_cons.1 passed with ⟨⟨firstDepth, isFirst⟩, others⟩
      rw [List.cons_append, allAnswer] at given
      cases tested : test depth first with
      | none => simp [tested] at given
      | some firstAnswer =>
          cases persists.answer_eq isFirst tested
          simp only [tested] at given
          exact ih others given

theorem anyAnswer_eq_not_allAnswer (test : item → Option Bool) (items : List item) :
    anyAnswer test items = (allAnswer (fun asked => (test asked).map (! ·)) items).map (! ·) := by
  induction items with
  | nil => rfl
  | cons first rest ih =>
      simp only [anyAnswer, allAnswer]
      cases test first with
      | none => rfl
      | some answer =>
          cases answer with
          | false => exact ih
          | true => rfl

theorem Persists.exists_anyAnswer (persists : Persists test)
    (each : ∀ earlier asked later, items = earlier ++ asked :: later →
      (∀ other ∈ earlier, ∃ depth, test depth other = some false) →
        ∃ depth answer, test depth asked = some answer) :
    ∃ depth answer, anyAnswer (test depth) items = some answer := by
  have opposite : ∃ depth answer,
      allAnswer (fun asked => (test depth asked).map (! ·)) items = some answer := by
    apply persists.not.exists_allAnswer
    intro earlier asked later divided passed
    have refused : ∀ other ∈ earlier, ∃ depth, test depth other = some false := by
      simpa using passed
    rcases each earlier asked later divided refused with ⟨depth, answer, isAnswer⟩
    exact ⟨depth, !answer, by simp [isAnswer]⟩
  rcases opposite with ⟨depth, answer, isAnswer⟩
  exact ⟨depth, !answer, by simp [anyAnswer_eq_not_allAnswer, isAnswer]⟩

theorem Persists.exists_of_anyAnswer (persists : Persists test) {asked : item}
    (refused : ∀ other ∈ earlier, ∃ depth, test depth other = some false) {depth : Nat}
    {answer : Bool} (given : anyAnswer (test depth) (earlier ++ asked :: later) = some answer) :
    ∃ askedAnswer, test depth asked = some askedAnswer := by
  rw [anyAnswer_eq_not_allAnswer] at given
  rcases Option.map_eq_some_iff.1 given with ⟨opposite, isOpposite, -⟩
  have passed : ∀ other ∈ earlier, ∃ depth, (test depth other).map (! ·) = some true := by
    simpa using refused
  rcases persists.not.exists_of_allAnswer passed isOpposite with ⟨askedAnswer, isAnswer⟩
  rcases Option.map_eq_some_iff.1 isAnswer with ⟨found, isFound, -⟩
  exact ⟨found, isFound⟩

end

/-- The comparisons of a type with the bounds of a wildcard, in the order in which they are asked. -/
def boundPairs (upper lower : List Ty) (ty : Ty) : List (Ty × Ty) :=
  upper.map (fun bound => (bound, ty)) ++ lower.map fun bound => (ty, bound)

theorem mem_boundPairs {upper lower : List Ty} {ty : Ty} {pair : Ty × Ty} :
    pair ∈ boundPairs upper lower ty ↔
      (∃ bound ∈ upper, pair = (bound, ty)) ∨ ∃ bound ∈ lower, pair = (ty, bound) := by
  simp [boundPairs, eq_comm]

theorem allAnswer_append {item : Type} (test : item → Option Bool) (left right : List item) :
    allAnswer test (left ++ right) =
      match allAnswer test left with
      | some true => allAnswer test right
      | answer => answer := by
  induction left with
  | nil => rfl
  | cons first rest ih =>
      simp only [List.cons_append, allAnswer]
      cases test first with
      | none => rfl
      | some answer =>
          cases answer with
          | false => rfl
          | true => exact ih

theorem allAnswer_map {item image : Type} (test : image → Option Bool) (transform : item → image)
    (items : List item) :
    allAnswer test (items.map transform) = allAnswer (fun asked => test (transform asked)) items := by
  induction items with
  | nil => rfl
  | cons first rest ih =>
      simp only [List.map_cons, allAnswer]
      rw [ih]

theorem withinBounds_eq_allAnswer (compare : Ty → Ty → Option Bool) (upper lower : List Ty)
    (ty : Ty) :
    withinBounds compare upper lower ty =
      allAnswer (fun pair => compare pair.1 pair.2) (boundPairs upper lower ty) := by
  rw [boundPairs, allAnswer_append, allAnswer_map, allAnswer_map]
  rfl

namespace Catalog

variable {catalog : Catalog}

/-- The comparison of a target with a source is answered in some depth. -/
def Answers (self : Catalog) (pair : Ty × Ty) : Prop :=
  ∃ depth answer, self.assignableWithin depth pair.1 pair.2 = some answer

/-- To answer the one comparison of a target with a source, the other one is asked. -/
inductive Asks (catalog : Catalog) : Ty × Ty → Ty × Ty → Prop where
  /-- A bound of a wildcard, if the bounds before it hold. -/
  | bound {upper lower : List Ty} {source : Ty} {pair : Ty × Ty} {earlier later : List (Ty × Ty)}
      (different : .wildcard upper lower ≠ source)
      (isNext : boundPairs upper lower source = earlier ++ pair :: later)
      (passed : ∀ other ∈ earlier, catalog.assignable other.1 other.2 = .ok true) :
      Asks catalog (.wildcard upper lower, source) pair
  /-- A bound of a wildcard for an argument, if the arguments and bounds before it are accepted. -/
  | argument {targetOwner sourceOwner : Option Ty} {targetRaw sourceRaw : ClassName}
      {targets sources upper lower : List Ty} {source : Ty} {pair : Ty × Ty}
      {before after earlier later : List (Ty × Ty)}
      (different : Ty.parameterized targetOwner targetRaw targets ≠
        .parameterized sourceOwner sourceRaw sources)
      (classes : catalog.classAssignable targetRaw sourceRaw = true)
      (lengths : targets.length = sources.length)
      (isArgument : targets.zip sources = before ++ (.wildcard upper lower, source) :: after)
      (accepted : ∀ other ∈ before,
        ∃ depth, argumentAccepts (catalog.assignableWithin depth) other = some true)
      (isNext : boundPairs upper lower source = earlier ++ pair :: later)
      (passed : ∀ other ∈ earlier, catalog.assignable other.1 other.2 = .ok true) :
      Asks catalog
        (.parameterized targetOwner targetRaw targets, .parameterized sourceOwner sourceRaw sources)
        pair
  /-- A supertype of a class, if the target takes none of those before it. -/
  | supertype {target supertype : Ty} {named : ClassName} {before after : List Ty}
      (concrete : target.isWildcard = false) (generic : target.asClass? = none)
      (isNext : catalog.supertypes named = before ++ supertype :: after)
      (refused : ∀ other ∈ before, catalog.assignable target other = .ok false) :
      Asks catalog (target, .nominal named) (target, supertype)

/-- More depth changes no answer of a comparison. -/
theorem persists_assignableWithin (catalog : Catalog) :
    Persists fun depth (pair : Ty × Ty) => catalog.assignableWithin depth pair.1 pair.2 :=
  ⟨fun le given => assignableWithin_of_le le given⟩

theorem persists_assignableWithin_source (catalog : Catalog) (target : Ty) :
    Persists fun depth source => catalog.assignableWithin depth target source :=
  ⟨fun le given => assignableWithin_of_le le given⟩

theorem persists_argumentAccepts (catalog : Catalog) :
    Persists fun depth pair => argumentAccepts (catalog.assignableWithin depth) pair :=
  ⟨fun le given => argumentAccepts_of_le le given⟩

/-- A class is compared with an applied class or a generic array by its supertypes. -/
theorem comparisonStep_supertypes {compare : Ty → Ty → Option Bool} {target : Ty}
    (concrete : target.isWildcard = false) (generic : target.asClass? = none) (named : ClassName) :
    catalog.comparisonStep compare target (.nominal named) =
      anyAnswer (fun supertype => compare target supertype) (catalog.supertypes named) := by
  cases target with
  | nominal => cases generic
  | wildcard => cases concrete
  | array | parameterized | var => simp [comparisonStep]

/-- What is asked is answered with less depth. -/
theorem Asks.exists_assignableWithin {pair other : Ty × Ty} (asks : catalog.Asks pair other)
    {depth : Nat} {answer : Bool}
    (given : catalog.assignableWithin (depth + 1) pair.1 pair.2 = some answer) :
    ∃ otherAnswer, catalog.assignableWithin depth other.1 other.2 = some otherAnswer := by
  rw [assignableWithin_succ] at given
  have someDepth : ∀ {pairs : List (Ty × Ty)},
      (∀ pair ∈ pairs, catalog.assignable pair.1 pair.2 = .ok true) →
        ∀ pair ∈ pairs, ∃ depth, catalog.assignableWithin depth pair.1 pair.2 = some true := by
    intro pairs passed pair member
    exact assignable_eq_ok_iff.1 (passed pair member)
  cases asks with
  | bound different isNext passed =>
      rw [comparisonStep_wildcard different, withinBounds_eq_allAnswer, isNext] at given
      exact catalog.persists_assignableWithin.exists_of_allAnswer (someDepth passed) given
  | argument different classes lengths isArgument accepted isNext passed =>
      rw [comparisonStep_parameterized different, if_pos (by simp [classes, lengths]),
        isArgument] at given
      rcases catalog.persists_argumentAccepts.exists_of_allAnswer accepted given with
          ⟨within, isWithin⟩
      simp only [argumentAccepts] at isWithin
      rw [withinBounds_eq_allAnswer, isNext] at isWithin
      exact catalog.persists_assignableWithin.exists_of_allAnswer (someDepth passed) isWithin
  | supertype concrete generic isNext refused =>
      rw [comparisonStep_supertypes concrete generic, isNext] at given
      refine (catalog.persists_assignableWithin_source _).exists_of_anyAnswer ?_ given
      intro before member
      exact assignable_eq_ok_iff.1 (refused before member)

theorem answers_of_comparisonStep {target source : Ty} {depth : Nat} {answer : Bool}
    (given : catalog.comparisonStep (catalog.assignableWithin depth) target source = some answer) :
    catalog.Answers (target, source) := by
  refine ⟨depth + 1, answer, ?_⟩
  rwa [assignableWithin_succ]

/-- A comparison that climbs is answered if those of the supertypes are. -/
theorem answers_of_supertypes {target : Ty} {named : ClassName}
    (concrete : target.isWildcard = false) (generic : target.asClass? = none)
    (each : ∀ pair, catalog.Asks (target, .nominal named) pair → catalog.Answers pair) :
    catalog.Answers (target, .nominal named) := by
  have answered : ∃ depth answer,
      anyAnswer (catalog.assignableWithin depth target) (catalog.supertypes named) =
        some answer := by
    apply (catalog.persists_assignableWithin_source target).exists_anyAnswer
    intro before supertype after isNext refused
    apply each (target, supertype)
    refine .supertype concrete generic isNext ?_
    intro other member
    exact assignable_eq_ok_iff.2 (refused other member)
  rcases answered with ⟨depth, answer, isAnswer⟩
  apply answers_of_comparisonStep
  rw [comparisonStep_supertypes concrete generic]
  exact isAnswer

/-- A comparison with a wildcard is answered if those of the bounds are. -/
theorem answers_of_bounds {upper lower : List Ty} {source : Ty}
    (different : .wildcard upper lower ≠ source)
    (each : ∀ pair, catalog.Asks (.wildcard upper lower, source) pair → catalog.Answers pair) :
    catalog.Answers (.wildcard upper lower, source) := by
  have answered : ∃ depth answer,
      allAnswer (fun pair => catalog.assignableWithin depth pair.1 pair.2)
        (boundPairs upper lower source) = some answer := by
    apply catalog.persists_assignableWithin.exists_allAnswer
    intro earlier pair later isNext passed
    apply each pair
    refine .bound different isNext ?_
    intro other member
    exact assignable_eq_ok_iff.2 (passed other member)
  rcases answered with ⟨depth, answer, isAnswer⟩
  apply answers_of_comparisonStep
  rw [comparisonStep_wildcard different, withinBounds_eq_allAnswer]
  exact isAnswer

/-- A comparison of applied classes is answered if those of the arguments are. -/
theorem answers_of_arguments {targetOwner sourceOwner : Option Ty}
    {targetRaw sourceRaw : ClassName} {targets sources : List Ty}
    (different : Ty.parameterized targetOwner targetRaw targets ≠
      .parameterized sourceOwner sourceRaw sources)
    (each : ∀ pair, catalog.Asks (.parameterized targetOwner targetRaw targets,
      .parameterized sourceOwner sourceRaw sources) pair → catalog.Answers pair) :
    catalog.Answers (.parameterized targetOwner targetRaw targets,
      .parameterized sourceOwner sourceRaw sources) := by
  by_cases related : (catalog.classAssignable targetRaw sourceRaw &&
      targets.length = sources.length) = true
  · have facts : catalog.classAssignable targetRaw sourceRaw = true ∧
        targets.length = sources.length := by
      simpa using related
    have answered : ∃ depth answer,
        allAnswer (argumentAccepts (catalog.assignableWithin depth)) (targets.zip sources) =
          some answer := by
      apply catalog.persists_argumentAccepts.exists_allAnswer
      rintro before ⟨target, argument⟩ after isArgument accepted
      cases target with
      | nominal | array | parameterized | var => exact ⟨0, _, rfl⟩
      | wildcard upper lower =>
          simp only [argumentAccepts, withinBounds_eq_allAnswer]
          apply catalog.persists_assignableWithin.exists_allAnswer
          intro earlier pair later isNext passed
          apply each pair
          refine .argument different facts.1 facts.2 isArgument accepted isNext ?_
          intro other member
          exact assignable_eq_ok_iff.2 (passed other member)
    rcases answered with ⟨depth, answer, isAnswer⟩
    apply answers_of_comparisonStep
    rw [comparisonStep_parameterized different, if_pos related]
    exact isAnswer
  · have refused : catalog.comparisonStep (catalog.assignableWithin 0)
        (.parameterized targetOwner targetRaw targets)
        (.parameterized sourceOwner sourceRaw sources) = some false := by
      rw [comparisonStep_parameterized different, if_neg related]
    exact answers_of_comparisonStep refused

/-- A comparison is answered if all that it asks is answered. -/
theorem answers_of_asked {target source : Ty}
    (each : ∀ pair, catalog.Asks (target, source) pair → catalog.Answers pair) :
    catalog.Answers (target, source) := by
  have decided : ∀ answer,
      catalog.comparisonStep (catalog.assignableWithin 0) target source = some answer →
        catalog.Answers (target, source) :=
    fun _ => answers_of_comparisonStep
  by_cases same : target = source
  · exact decided true (by simp [comparisonStep, same])
  · cases target with
    | nominal named =>
        cases source with
        | nominal other =>
            exact decided (catalog.classAssignable named other) (by simp [comparisonStep, same])
        | parameterized owner raw arguments =>
            exact decided (catalog.classAssignable named raw) (by simp [comparisonStep])
        | array | var | wildcard => exact decided false (by simp [comparisonStep])
    | wildcard upper lower => exact answers_of_bounds same each
    | array | var =>
        cases source with
        | nominal named => exact answers_of_supertypes rfl rfl each
        | array | parameterized | var | wildcard =>
            exact decided false (by simp [comparisonStep, same])
    | parameterized owner raw arguments =>
        cases source with
        | nominal named => exact answers_of_supertypes rfl rfl each
        | parameterized => exact answers_of_arguments same each
        | array | var | wildcard => exact decided false (by simp [comparisonStep])

/-- What a comparison asks is among the pairs that it can lead to. -/
theorem Asks.mem_comparedPairs {pair other start : Ty × Ty} (asks : catalog.Asks pair other)
    (member : pair ∈ catalog.comparedPairs start.1 start.2) :
    other ∈ catalog.comparedPairs start.1 start.2 := by
  have closed := catalog.isClosed_comparedTypes start.1 start.2
  have within : ∀ {upper lower : List Ty} {source : Ty},
      .wildcard upper lower ∈ catalog.comparedTypes start.1 start.2 →
        source ∈ catalog.comparedTypes start.1 start.2 →
          ∀ asked ∈ boundPairs upper lower source,
            asked ∈ catalog.comparedPairs start.1 start.2 := by
    intro upper lower source isTarget isSource asked isAsked
    rcases mem_boundPairs.1 isAsked with ⟨bound, isBound, rfl⟩ | ⟨bound, isBound, rfl⟩
    · have isPart := closed.bounds isTarget bound (List.mem_append_left lower isBound)
      exact Catalog.mem_comparedPairs.2 ⟨isPart, isSource⟩
    · have isPart := closed.bounds isTarget bound (List.mem_append_right upper isBound)
      exact Catalog.mem_comparedPairs.2 ⟨isSource, isPart⟩
  rcases Catalog.mem_comparedPairs.1 member with ⟨isTarget, isSource⟩
  cases asks with
  | bound different isNext passed =>
      apply within isTarget isSource
      simp [isNext]
  | argument different classes lengths isArgument accepted isNext passed =>
      rcases List.of_mem_zip (isArgument ▸ List.mem_append_right _ List.mem_cons_self) with
          ⟨isWildcard, isCounterpart⟩
      apply within (closed.arguments isTarget _ isWildcard)
        (closed.arguments isSource _ isCounterpart)
      simp [isNext]
  | supertype concrete generic isNext refused =>
      refine Catalog.mem_comparedPairs.2 ⟨isTarget, closed.supertypes isSource _ ?_⟩
      simp [isNext]

/-- The comparison leads to one that asks for itself again. -/
def Recurs (self : Catalog) (pair : Ty × Ty) : Prop :=
  ∃ other, Relation.ReflTransGen self.Asks pair other ∧ Relation.TransGen self.Asks other other

theorem exists_assignableWithin_of_reflTransGen {pair other : Ty × Ty}
    (path : Relation.ReflTransGen catalog.Asks pair other) {depth : Nat} {answer : Bool}
    (given : catalog.assignableWithin depth pair.1 pair.2 = some answer) :
    ∃ less ≤ depth, ∃ otherAnswer,
      catalog.assignableWithin less other.1 other.2 = some otherAnswer := by
  induction path with
  | refl => exact ⟨depth, le_refl depth, answer, given⟩
  | tail _ asks ih =>
      rcases ih with ⟨less, le, middleAnswer, isMiddle⟩
      cases less with
      | zero => cases isMiddle
      | succ less => exact ⟨less, Nat.le_of_succ_le le, asks.exists_assignableWithin isMiddle⟩

/-- What an answered comparison leads to in at least one step is answered in less depth. -/
theorem exists_assignableWithin_of_transGen {pair other : Ty × Ty}
    (path : Relation.TransGen catalog.Asks pair other) {depth : Nat} {answer : Bool}
    (given : catalog.assignableWithin depth pair.1 pair.2 = some answer) :
    ∃ less < depth, ∃ otherAnswer,
      catalog.assignableWithin less other.1 other.2 = some otherAnswer := by
  rcases Relation.TransGen.head'_iff.1 path with ⟨middle, asks, rest⟩
  cases depth with
  | zero => cases given
  | succ depth =>
      rcases asks.exists_assignableWithin given with ⟨middleAnswer, isMiddle⟩
      rcases exists_assignableWithin_of_reflTransGen rest isMiddle with ⟨less, le, isOther⟩
      exact ⟨less, Nat.lt_succ_of_le le, isOther⟩

/-- No comparison with an answer asks for itself: it would do so in less and less depth. -/
theorem Answers.not_transGen {pair : Ty × Ty} (answers : catalog.Answers pair) :
    ¬Relation.TransGen catalog.Asks pair pair := by
  intro cycle
  rcases answers with ⟨depth, answer, given⟩
  induction depth using Nat.strong_induction_on generalizing answer with
  | _ depth ih =>
      rcases exists_assignableWithin_of_transGen cycle given with ⟨less, lt, again, isAgain⟩
      exact ih less lt again isAgain

theorem Answers.of_reflTransGen {pair other : Ty × Ty} (answers : catalog.Answers pair)
    (path : Relation.ReflTransGen catalog.Asks pair other) : catalog.Answers other := by
  rcases answers with ⟨depth, answer, given⟩
  rcases exists_assignableWithin_of_reflTransGen path given with ⟨less, -, isOther⟩
  exact ⟨less, isOther⟩

/-- The comparisons that a comparison leads to. -/
def Asked (self : Catalog) (pair : Ty × Ty) : Type :=
  { other // Relation.ReflTransGen self.Asks pair other }

instance (pair : Ty × Ty) : Finite (catalog.Asked pair) := by
  have within : ∀ other : catalog.Asked pair, other.1 ∈ catalog.comparedPairs pair.1 pair.2 := by
    rintro ⟨other, path⟩
    induction path with
    | refl => exact catalog.mem_comparedPairs_self pair.1 pair.2
    | tail _ asks ih => exact asks.mem_comparedPairs ih
  apply Finite.of_injective fun other =>
    (⟨other.1, within other⟩ : { other // other ∈ catalog.comparedPairs pair.1 pair.2 })
  intro left right same
  exact Subtype.ext (Subtype.mk.inj same)

/--
A comparison is answered just if it leads to none that asks for itself again. Only finitely many
comparisons are led to, so that without a cycle no chain of them is infinite.
-/
theorem answers_iff {pair : Ty × Ty} : catalog.Answers pair ↔ ¬catalog.Recurs pair := by
  constructor
  · rintro answers ⟨other, path, cycle⟩
    exact (answers.of_reflTransGen path).not_transGen cycle
  · intro ends
    let leads : catalog.Asked pair → catalog.Asked pair → Prop :=
      fun asked asking => Relation.TransGen catalog.Asks asking.1 asked.1
    have isTrans : IsTrans (catalog.Asked pair) leads := ⟨fun _ _ _ left right => right.trans left⟩
    have isIrrefl : Std.Irrefl leads := ⟨fun other cycle => ends ⟨other.1, other.2, cycle⟩⟩
    have wellFounded := Finite.wellFounded_of_trans_of_irrefl leads
    have each : ∀ other : catalog.Asked pair, catalog.Answers other.1 := by
      intro other
      induction other using wellFounded.induction with
      | _ other ih =>
          apply answers_of_asked
          intro next asks
          exact ih ⟨next, other.2.tail asks⟩ (.single asks)
    exact each ⟨pair, .refl⟩

end Catalog

end NominalTypes
