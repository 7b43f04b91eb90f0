import Mathlib.Data.Finset.Card

/-!
# Answers that are found round by round

A recursion that is cut off at a depth answers more questions the deeper it may go, and never
changes an answer. When the questions that lead to each other are finite in number, a depth of that
number is enough for all answers that any depth gives: each round before answers a new question, or
no later one does.
-/

namespace NominalTypes

namespace Rounds

section

variable {question answer : Type} {carrier : Finset question}

/-- The questions of the carrier that the one answers the other answers in the same way. -/
def IsBelow (carrier : Finset question) (less more : question → Option answer) : Prop :=
  ∀ asked ∈ carrier, ∀ given, less asked = some given → more asked = some given

theorem IsBelow.trans {first second third : question → Option answer}
    (left : IsBelow carrier first second) (right : IsBelow carrier second third) :
    IsBelow carrier first third :=
  fun asked member given isGiven => right asked member given (left asked member given isGiven)

variable {step : (question → Option answer) → question → Option answer}
  {answers : Nat → question → Option answer}
  (start : ∀ asked, answers 0 asked = none)
  (next : ∀ rounds, answers (rounds + 1) = step (answers rounds))
  (monotone : ∀ less more, IsBelow carrier less more → IsBelow carrier (step less) (step more))

include start next monotone

theorem isBelow_succ (rounds : Nat) :
    IsBelow carrier (answers rounds) (answers (rounds + 1)) := by
  induction rounds with
  | zero =>
      intro asked _ given isGiven
      rw [start] at isGiven
      cases isGiven
  | succ rounds ih =>
      rw [next rounds, next (rounds + 1)]
      exact monotone _ _ ih

theorem isBelow_of_le {fewer more : Nat} (le : fewer ≤ more) :
    IsBelow carrier (answers fewer) (answers more) := by
  induction le with
  | refl => exact fun _ _ _ isGiven => isGiven
  | step _ ih => exact ih.trans (isBelow_succ start next monotone _)

/-- Answers that change give an answer to a further question. -/
theorem card_lt_of_not_isBelow {rounds : Nat}
    (unsettled : ¬IsBelow carrier (answers (rounds + 1)) (answers rounds)) :
    (carrier.filter fun asked => (answers rounds asked).isSome).card <
      (carrier.filter fun asked => (answers (rounds + 1) asked).isSome).card := by
  have below := isBelow_succ start next monotone rounds
  simp only [IsBelow, not_forall] at unsettled
  rcases unsettled with ⟨asked, member, given, isGiven, isNew⟩
  have unanswered : answers rounds asked = none := by
    cases earlier : answers rounds asked with
    | none => rfl
    | some other =>
        have same := below asked member other earlier
        rw [isGiven] at same
        exact absurd (earlier.trans same.symm) isNew
  apply Finset.card_lt_card
  rw [Finset.ssubset_iff_of_subset]
  · exact ⟨asked, by simp [member, isGiven], by simp [unanswered]⟩
  · intro other isAnswered
    rcases Finset.mem_filter.1 isAnswered with ⟨isOther, isSome⟩
    rcases Option.isSome_iff_exists.1 isSome with ⟨answer, isAnswer⟩
    apply Finset.mem_filter.2
    exact ⟨isOther, Option.isSome_of_mem (below other isOther answer isAnswer)⟩

/-- A round settles all answers, or after it as many questions are answered as there were rounds. -/
theorem isBelow_or_le_card (rounds : Nat) :
    IsBelow carrier (answers (rounds + 1)) (answers rounds) ∨
      rounds + 1 ≤ (carrier.filter fun asked => (answers (rounds + 1) asked).isSome).card := by
  induction rounds with
  | zero =>
      by_cases settled : IsBelow carrier (answers (0 + 1)) (answers 0)
      · exact Or.inl settled
      · have grown := card_lt_of_not_isBelow start next monotone settled
        exact Or.inr (by omega)
  | succ rounds ih =>
      by_cases settled : IsBelow carrier (answers (rounds + 1 + 1)) (answers (rounds + 1))
      · exact Or.inl settled
      · have grown := card_lt_of_not_isBelow start next monotone settled
        rcases ih with earlier | many
        · have again := monotone _ _ earlier
          rw [← next, ← next] at again
          exact absurd again settled
        · exact Or.inr (by omega)

/-- With as many rounds as there are questions all answers are given that any number gives. -/
theorem isBelow_card (rounds : Nat) :
    IsBelow carrier (answers rounds) (answers carrier.card) := by
  have settled : IsBelow carrier (answers (carrier.card + 1)) (answers carrier.card) := by
    rcases isBelow_or_le_card start next monotone carrier.card with settled | many
    · exact settled
    · have bounded := Finset.card_filter_le carrier
        fun asked => (answers (carrier.card + 1) asked).isSome
      omega
  have later : ∀ more, IsBelow carrier (answers (carrier.card + more)) (answers carrier.card) := by
    intro more
    induction more with
    | zero => exact fun _ _ _ isGiven => isGiven
    | succ more ih =>
        have stepped := monotone _ _ ih
        rw [← next, ← next] at stepped
        exact stepped.trans settled
  rcases Nat.le_total rounds carrier.card with fewer | more
  · exact isBelow_of_le start next monotone fewer
  · have isSum : carrier.card + (rounds - carrier.card) = rounds := by omega
    exact isSum ▸ later (rounds - carrier.card)

end

/-- What each item has from some depth on, all items of a list have in a common depth. -/
theorem exists_common {item : Type} {holds : Nat → item → Prop} {items : List item}
    (each : ∀ item ∈ items, ∃ depth, holds depth item)
    (stays : ∀ item {fewer more : Nat}, fewer ≤ more → holds fewer item → holds more item) :
    ∃ depth, ∀ item ∈ items, holds depth item := by
  induction items with
  | nil => exact ⟨0, by simp⟩
  | cons first rest ih =>
      rcases List.forall_mem_cons.1 each with ⟨⟨firstDepth, isFirst⟩, others⟩
      rcases ih others with ⟨restDepth, areRest⟩
      refine ⟨max firstDepth restDepth, List.forall_mem_cons.2 ⟨?_, ?_⟩⟩
      · exact stays first (Nat.le_max_left _ _) isFirst
      · intro item member
        exact stays item (Nat.le_max_right _ _) (areRest item member)

end Rounds

end NominalTypes
