import Mathlib.Data.List.Forall2

/-!
# Steps that may fail

A sequence of steps succeeds when each of them does. These laws open a successful sequence at its
steps: two in a row, or one for each item of a list.
-/

namespace NominalTypes

/-- Two steps succeed where the first one does and the second one does with its value. -/
theorem bind_eq_ok {error value result : Type} {step : Except error value}
    {next : value → Except error result} {final : result} :
    (step >>= next) = .ok final ↔ ∃ middle, step = .ok middle ∧ next middle = .ok final := by
  cases step with
  | error cause => simp [bind, Except.bind]
  | ok middle => simp [bind, Except.bind]

theorem exists_eq_ok_of_isSome {error value : Type} {step : Except error value}
    (succeeds : step.toOption.isSome = true) : ∃ result, step = .ok result := by
  cases step with
  | error cause => cases succeeds
  | ok result => exact ⟨result, rfl⟩

theorem map_eq_ok {error value result : Type} {step : Except error value}
    {change : value → result} {final : result} :
    step.map change = .ok final ↔ ∃ middle, step = .ok middle ∧ change middle = final := by
  cases step <;> simp [Except.map]

theorem mapError_eq_ok {error cause value : Type} {step : Except error value}
    {change : error → cause} {final : value} :
    step.mapError change = .ok final ↔ step = .ok final := by
  cases step <;> simp [Except.mapError]

/-- A sequence of steps that succeeds still does with steps which succeed where its own ones do. -/
theorem bind_eq_ok_mono {error value result : Type} {step other : Except error value}
    {next otherNext : value → Except error result} {final : result}
    (succeeded : (step >>= next) = .ok final)
    (steps : ∀ middle, step = .ok middle → other = .ok middle)
    (nexts : ∀ middle, next middle = .ok final → otherNext middle = .ok final) :
    (other >>= otherNext) = .ok final := by
  rcases bind_eq_ok.1 succeeded with ⟨middle, isMiddle, isFinal⟩
  exact bind_eq_ok.2 ⟨middle, steps middle isMiddle, nexts middle isFinal⟩

/-- Steps with the same results, which can fail in one way only, are equal. -/
theorem eq_of_eq_ok_iff {error value : Type} {left right : Except error value} {only : error}
    (sameResults : ∀ result, left = .ok result ↔ right = .ok result)
    (leftFails : ∀ cause, left = .error cause → cause = only)
    (rightFails : ∀ cause, right = .error cause → cause = only) : left = right := by
  cases right with
  | ok result => exact (sameResults result).2 rfl
  | error cause =>
      cases left with
      | ok result => cases (sameResults result).1 rfl
      | error other => rw [leftFails other rfl, rightFails cause rfl]

/-- A step succeeds for all items where it does for each of them. -/
theorem mapM_eq_ok {error item result : Type} {step : item → Except error result}
    {items : List item} {results : List result} :
    items.mapM step = .ok results ↔
      List.Forall₂ (fun item result => step item = .ok result) items results := by
  induction items generalizing results with
  | nil => simp [pure, Except.pure, eq_comm]
  | cons first rest ih =>
      simp only [List.mapM_cons, bind_eq_ok, List.forall₂_cons_left_iff]
      constructor
      · rintro ⟨head, isHead, tail, isTail, same⟩
        cases same
        exact ⟨head, tail, isHead, ih.1 isTail, rfl⟩
      · rintro ⟨head, tail, isHead, isTail, rfl⟩
        exact ⟨head, isHead, tail, ih.2 isTail, rfl⟩

theorem forall_of_forall₂ {item result : Type} {relation : item → result → Prop}
    {property : result → Prop} (each : ∀ first second, relation first second → property second)
    {items : List item} {results : List result} (related : List.Forall₂ relation items results) :
    ∀ second ∈ results, property second := by
  induction related with
  | nil => simp
  | cons head _ ih => exact List.forall_mem_cons.2 ⟨each _ _ head, ih⟩

theorem exists_of_forall₂ {item result : Type} {relation : item → result → Prop}
    {items : List item} {results : List result} (related : List.Forall₂ relation items results)
    {first : item} (member : first ∈ items) : ∃ second ∈ results, relation first second := by
  induction related with
  | nil => cases member
  | @cons head image items results isImage _ ih =>
      rcases List.mem_cons.1 member with rfl | later
      · exact ⟨image, List.mem_cons_self, isImage⟩
      · rcases ih later with ⟨second, isResult, related⟩
        exact ⟨second, List.mem_cons_of_mem _ isResult, related⟩

end NominalTypes
