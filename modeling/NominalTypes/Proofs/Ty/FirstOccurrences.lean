import Mathlib.Data.List.Basic
import Mathlib.Data.List.Induction
import NominalTypes.Proofs.Ty.Variables
import NominalTypes.Ty.Visitor

/-!
# First occurrences of variables

A visitor that reports what it meets folds its reports over the events of the walk, in whatever
state it starts. The collector of variables is such a visitor, and of the events only the variables
count for it: these are the occurrences in the expression. So from whatever variables were found
before, a visit adds those that occur and are not among them, each at its first place. From none it
leaves the type variables of the expression.
-/

namespace NominalTypes

namespace TypeVisitor

theorem foldl_entered {State : Type} {report : State → TraversalEvent → State}
    {entered walked : State} {events : List TraversalEvent}
    (isWalk : walked = events.foldl report entered) (enters : Bool) :
    (if enters then walked else entered) =
      (if enters then events else []).foldl report entered := by
  cases enters with
  | true => exact isWalk
  | false => rfl

/-- What is reported between the beginning and the end of an expression is the walk through it. -/
theorem foldl_enclosed {State : Type} {report : State → TraversalEvent → State}
    {state walked : State} {start : TraversalEvent} {events : List TraversalEvent}
    (isWalk : walked = events.foldl report (report state start)) (enters : Bool)
    (stop : TraversalEvent) :
    report (if enters then walked else report state start) stop =
      (start :: (if enters then events else []) ++ [stop]).foldl report state := by
  rw [foldl_entered isWalk, List.cons_append, List.foldl_cons, List.foldl_append]
  rfl

section

variable {State : Type} (plan : TraversalPlan) (report : State → TraversalEvent → State)

mutual

/-- A visitor that reports what it meets folds its reports over the events of the walk. -/
theorem visit_reporting :
    ∀ (ty : Ty) (state : State),
      (reporting plan report).visit ty state = (ty.events plan).foldl report state
  | .nominal _, _ => rfl
  | .array component, state => by
      have walked := visit_reporting component (report state (.arrayStart component))
      exact foldl_enclosed walked plan.entersArrays .arrayEnd
  | .parameterized owner raw arguments, state => by
      have walked : (reporting plan report).visitAll arguments
          (report ((reporting plan report).visitOwner owner (report state (.parameterizedStart raw)))
            (.nominal raw)) =
          (Ty.eventsOwner plan owner ++ .nominal raw :: Ty.eventsAll plan arguments).foldl report
            (report state (.parameterizedStart raw)) := by
        rw [List.foldl_append, List.foldl_cons, visitOwner_reporting owner,
          visitAll_reporting arguments]
      exact foldl_enclosed walked plan.entersParameterized .parameterizedEnd
  | .var ⟨site, name, bounds⟩, state => by
      have walked := visitAll_reporting bounds (report state (.var ⟨site, name, bounds⟩))
      exact foldl_entered walked plan.entersVariables
  | .wildcard upper lower, state => by
      have walked : (reporting plan report).visitAll lower
          ((reporting plan report).visitAll upper (report state (.wildcardStart upper lower))) =
          (Ty.eventsAll plan upper ++ Ty.eventsAll plan lower).foldl report
            (report state (.wildcardStart upper lower)) := by
        rw [List.foldl_append, visitAll_reporting upper, visitAll_reporting lower]
      exact foldl_enclosed walked plan.entersWildcards .wildcardEnd
termination_by structural ty => ty

theorem visitOwner_reporting :
    ∀ (owner : Option Ty) (state : State),
      (reporting plan report).visitOwner owner state =
        (Ty.eventsOwner plan owner).foldl report state
  | none, _ => rfl
  | some owner, state => visit_reporting owner state
termination_by structural owner => owner

theorem visitAll_reporting :
    ∀ (parts : List Ty) (state : State),
      (reporting plan report).visitAll parts state = (Ty.eventsAll plan parts).foldl report state
  | [], _ => rfl
  | part :: parts, state => by
      rw [Ty.eventsAll, List.foldl_append, ← visit_reporting part, ← visitAll_reporting parts]
      rfl
termination_by structural parts => parts

end

end

/-- The variables found after one more event of a walk. -/
def noteEvent (found : List TypeVariable) (event : TraversalEvent) : List TypeVariable :=
  match event.variable? with
  | some parameter => Ty.addVariable found parameter
  | none => found

theorem variableCollector_eq_reporting : variableCollector = reporting {} noteEvent := rfl

theorem foldl_noteEvent (events : List TraversalEvent) (found : List TypeVariable) :
    events.foldl noteEvent found =
      (events.filterMap TraversalEvent.variable?).foldl Ty.addVariable found := by
  induction events generalizing found with
  | nil => rfl
  | cons event rest ih => cases event <;> exact ih _

end TypeVisitor

namespace Ty

mutual

/-- The variables that a walk meets are those that occur. -/
theorem filterMap_events :
    ∀ ty : Ty, (ty.events {}).filterMap TraversalEvent.variable? = ty.occurrences
  | .nominal _ => rfl
  | .array component => by
      simp [events, occurrences, List.filterMap_cons, TraversalEvent.variable?,
        filterMap_events component]
  | .parameterized owner _ arguments => by
      simp [events, occurrences, List.filterMap_cons, TraversalEvent.variable?,
        filterMap_eventsOwner owner, filterMap_eventsAll arguments]
  | .var ⟨_, _, _⟩ => rfl
  | .wildcard upper lower => by
      simp [events, occurrences, List.filterMap_cons, TraversalEvent.variable?,
        filterMap_eventsAll upper, filterMap_eventsAll lower]
termination_by structural ty => ty

theorem filterMap_eventsOwner :
    ∀ owner : Option Ty,
      (eventsOwner {} owner).filterMap TraversalEvent.variable? = occurrencesOwner owner
  | none => rfl
  | some owner => filterMap_events owner
termination_by structural owner => owner

theorem filterMap_eventsAll :
    ∀ parts : List Ty,
      (eventsAll {} parts).filterMap TraversalEvent.variable? = occurrencesAll parts
  | [] => rfl
  | part :: parts => by
      rw [eventsAll, occurrencesAll, List.filterMap_append, filterMap_events part,
        filterMap_eventsAll parts]
termination_by structural parts => parts

end

end Ty

section

variable {element : Type} [BEq element] [LawfulBEq element]

/-- Without repetitions the elements are in the order of their first places. -/
theorem pairwise_idxOf_eraseDups (places : List element) :
    places.eraseDups.Pairwise fun earlier later => places.idxOf earlier < places.idxOf later := by
  induction places using List.reverseRecOn with
  | nil => simp
  | append_singleton places last ih =>
      have sameOrder : places.eraseDups.Pairwise fun earlier later =>
          (places ++ [last]).idxOf earlier < (places ++ [last]).idxOf later := by
        refine ih.imp_of_mem fun isEarlier isLater inOrder => ?_
        rwa [List.idxOf_append_of_mem (List.mem_eraseDups.1 isEarlier),
          List.idxOf_append_of_mem (List.mem_eraseDups.1 isLater)]
      rw [List.eraseDups_append]
      by_cases isPlace : last ∈ places
      · simpa [List.cons_removeAll, isPlace] using sameOrder
      · have isNew : ([last].removeAll places).eraseDups = [last] := by
          simp [List.cons_removeAll, isPlace, List.eraseDups_cons]
        rw [isNew, List.pairwise_append]
        refine ⟨sameOrder, List.pairwise_singleton _ _, fun earlier isEarlier later isLast => ?_⟩
        cases List.mem_singleton.1 isLast
        have isBefore := List.mem_eraseDups.1 isEarlier
        calc (places ++ [last]).idxOf earlier
          _ = places.idxOf earlier := List.idxOf_append_of_mem isBefore
          _ < places.length := List.idxOf_lt_length_of_mem isBefore
          _ ≤ places.length + [last].idxOf last := Nat.le_add_right _ _
          _ = (places ++ [last]).idxOf last := (List.idxOf_append_of_notMem isPlace).symm

end

/-- Variables that are added one by one come behind those found before, at their first places. -/
theorem Ty.foldl_addVariable (parameters found : List TypeVariable) :
    parameters.foldl addVariable found = found ++ (parameters.removeAll found).eraseDups := by
  induction parameters generalizing found with
  | nil => simp
  | cons first rest ih =>
      rw [List.foldl_cons, ih, List.cons_removeAll]
      by_cases isFound : first ∈ found
      · simp [addVariable, isFound]
      · have others : rest.removeAll (found ++ [first]) =
            (rest.removeAll found).filter fun parameter => !parameter == first := by
          simp only [List.removeAll, List.filter_filter]
          grind
        simp [addVariable, isFound, others, List.eraseDups_cons]

/--
Whatever was found before an expression is looked at stays in front. Behind it come the variables
that occur and are not among those, each at its first place.
-/
theorem Ty.gatherVariables_eq_append (found : List TypeVariable) (ty : Ty) :
    gatherVariables found ty = found ++ (ty.occurrences.removeAll found).eraseDups := by
  rw [gatherVariables_eq_foldl, foldl_addVariable]

/-- A visit of the collector gathers the variables, whatever was found before. -/
theorem TypeVisitor.visit_variableCollector (ty : Ty) (found : List TypeVariable) :
    variableCollector.visit ty found = Ty.gatherVariables found ty := by
  rw [variableCollector_eq_reporting, visit_reporting, foldl_noteEvent, Ty.filterMap_events,
    Ty.gatherVariables_eq_foldl]

/--
The type variables of an expression are what the collector finds in it: its occurrences of variables
from left to right, without those that are not the first of their variable. None is listed twice,
none is missing, and they are in the order of their first places.
-/
theorem Ty.typeVariables_firstOccurrences (ty : Ty) :
    TypeVisitor.variableCollector.visit ty [] = ty.typeVariables ∧
      ty.typeVariables = ty.occurrences.eraseDups ∧
      ty.typeVariables.Nodup ∧
      (∀ parameter, parameter ∈ ty.typeVariables ↔ parameter ∈ ty.occurrences) ∧
      ty.typeVariables.Pairwise fun earlier later =>
        ty.occurrences.idxOf earlier < ty.occurrences.idxOf later := by
  have listed : ty.typeVariables = ty.occurrences.eraseDups := by
    rw [typeVariables, gatherVariables_eq_append, List.nil_append, List.removeAll_nil]
  have inOrder : ty.typeVariables.Pairwise fun earlier later =>
      ty.occurrences.idxOf earlier < ty.occurrences.idxOf later := by
    rw [listed]
    exact pairwise_idxOf_eraseDups ty.occurrences
  have distinct : ty.typeVariables.Nodup := by
    refine inOrder.imp fun isBefore same => ?_
    rw [same] at isBefore
    exact Nat.lt_irrefl _ isBefore
  exact ⟨TypeVisitor.visit_variableCollector ty [], listed, distinct,
    fun parameter => mem_typeVariables, inOrder⟩

/-- The variable that only bounds another one is not listed. -/
example :
    let element := TypeVariable.unbounded (.type (.plain "a.Box")) "E"
    let key : TypeVariable := ⟨.type (.plain "a.Graph"), "K", [.var element]⟩
    let value := TypeVariable.unbounded (.type (.plain "a.Graph")) "V"
    let graph := Ty.parameterized none (.plain "a.Graph") [.var value, .var key]
    (Ty.parameterized (some graph) (.plain "a.Graph$Node")
      [.wildcard [.array (.var key)] [.var value]]).typeVariables = [value, key] := by
  decide

end NominalTypes
