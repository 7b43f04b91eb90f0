import Mathlib.Data.List.Flatten
import NominalTypes.Hierarchy.Worklist
import NominalTypes.Proofs.Hierarchy.Resolution

/-!
# The search for an ancestor ends

Each step of the search takes an element off the stack, and only a first visit puts new ones on it.
So the elements on the stack, together with the neighbours of those not yet visited, become fewer
with every step, on every finite graph. What was visited stays closed up to the stack; hence an
empty stack means that the target cannot be reached. For classes this decides ancestry, and with it
assignability, whatever cycles the supertypes have.
-/

namespace NominalTypes

namespace Worklist

section

variable {element : Type} {next : element → List element} {start target : element}
  {state later : Worklist element} {graph : List element}

/--
All that was found is reached from the start, the start is found, the neighbours of what was visited
are found, and the target was not visited.
-/
structure Explores (next : element → List element) (start target : element)
    (state : Worklist element) : Prop where
  visited : ∀ other ∈ state.visited, Closure.Reaches next start other
  pending : ∀ other ∈ state.pending, Closure.Reaches next start other
  begins : start ∈ state.visited ∨ start ∈ state.pending
  closed : ∀ source ∈ state.visited, ∀ other ∈ next source,
    other ∈ state.visited ∨ other ∈ state.pending
  missed : target ∉ state.visited

theorem explores_initial (start target : element) : Explores next start target (initial start) where
  visited := by simp [initial]
  pending := by
    intro other isStart
    cases List.mem_singleton.1 isStart
    exact .refl start
  begins := Or.inr (List.mem_singleton.2 rfl)
  closed := by simp [initial]
  missed := by simp [initial]

/-- With an empty stack everything that is reached was visited. -/
theorem Explores.mem_visited (explores : Explores next start target state)
    (isOver : state.pending = []) {other : element} (path : Closure.Reaches next start other) :
    other ∈ state.visited := by
  have follows : ∀ {source other : element}, Closure.Reaches next source other →
      source ∈ state.visited → other ∈ state.visited := by
    intro source other path
    induction path with
    | refl => exact id
    | step edge _ ih =>
        intro isVisited
        have found := explores.closed _ isVisited _ edge
        rw [isOver] at found
        exact ih (found.resolve_right List.not_mem_nil)
  have begins := explores.begins
  rw [isOver] at begins
  exact follows path (begins.resolve_right List.not_mem_nil)

variable [DecidableEq element]

/-- A search is over when nothing is left on the stack, or when the target comes off it. -/
theorem step_eq_inl {answer : Bool} (isOver : step next target state = .inl answer) :
    (state.pending = [] ∧ answer = false) ∨
      ∃ rest, state.pending = target :: rest ∧ answer = true := by
  rcases state with ⟨visited, pending⟩
  cases pending with
  | nil =>
      cases isOver
      exact Or.inl ⟨rfl, rfl⟩
  | cons current rest =>
      simp only [step] at isOver
      split at isOver
      · next isTarget =>
        cases isOver
        exact Or.inr ⟨rest, by rw [isTarget], rfl⟩
      · split at isOver <;> cases isOver

/--
Any other element is dropped if it was visited before, and else visited, with its neighbours put on
the stack.
-/
theorem step_eq_inr (goesOn : step next target state = .inr later) :
    ∃ current rest, state.pending = current :: rest ∧ current ≠ target ∧
      ((current ∈ state.visited ∧ later = ⟨state.visited, rest⟩) ∨
        (current ∉ state.visited ∧
          later = ⟨current :: state.visited, (next current).reverse ++ rest⟩)) := by
  rcases state with ⟨visited, pending⟩
  cases pending with
  | nil => cases goesOn
  | cons current rest =>
      simp only [step] at goesOn
      split at goesOn
      · cases goesOn
      · next other =>
        split at goesOn
        · next known =>
          cases goesOn
          exact ⟨current, rest, rfl, other, Or.inl ⟨known, rfl⟩⟩
        · next unknown =>
          cases goesOn
          exact ⟨current, rest, rfl, other, Or.inr ⟨unknown, rfl⟩⟩

/-- The neighbours that an element may still put on the stack: those of a visited one are there. -/
def owed (next : element → List element) (visited : List element) (current : element) :
    List element :=
  if current ∈ visited then [] else next current

/-- The number of elements on the stack and of all that those of the graph may still put there. -/
def work (next : element → List element) (graph : List element) (state : Worklist element) : Nat :=
  state.pending.length + (graph.flatMap (owed next state.visited)).length

theorem owed_cons_self (next : element → List element) (visited : List element)
    (current : element) : owed next (current :: visited) current = [] := by
  simp [owed]

theorem owed_cons_sublist (next : element → List element) (visited : List element)
    (current other : element) :
    (owed next (current :: visited) other).Sublist (owed next visited other) := by
  by_cases known : other ∈ visited
  · simp [owed, known]
  · by_cases same : other = current <;> simp [owed, known, same]

/-- A first visit clears what the visited element owes. -/
theorem length_owed_cons (next : element → List element) {visited : List element}
    {current : element} (unknown : current ∉ visited) (member : current ∈ graph) :
    (graph.flatMap (owed next (current :: visited))).length + (next current).length ≤
      (graph.flatMap (owed next visited)).length := by
  have isOwed : owed next visited current = next current := by simp [owed, unknown]
  induction graph with
  | nil => cases member
  | cons first rest ih =>
      simp only [List.flatMap_cons, List.length_append]
      rcases List.mem_cons.1 member with rfl | later
      · have others := (List.Sublist.flatMap_right rest fun other _ =>
          owed_cons_sublist next visited current other).length_le
        rw [owed_cons_self, isOwed, List.length_nil]
        omega
      · have whole := ih later
        have one := (owed_cons_sublist next visited current first).length_le
        omega

/-- Each step leaves less work. -/
theorem work_lt_of_step (within : ∀ other ∈ state.pending, other ∈ graph)
    (goesOn : step next target state = .inr later) :
    work next graph later < work next graph state := by
  rcases step_eq_inr goesOn with ⟨current, rest, isPending, -, ⟨-, rfl⟩ | ⟨unknown, rfl⟩⟩
  · simp only [work, isPending, List.length_cons]
    omega
  · have member : current ∈ graph := within current (by simp [isPending])
    have cleared := length_owed_cons next unknown member
    simp only [work, isPending, List.length_append, List.length_reverse, List.length_cons]
    omega

namespace Explores

/-- A step keeps what holds of the state. An element that is dropped is among those visited. -/
theorem step (explores : Explores next start target state)
    (goesOn : Worklist.step next target state = .inr later) : Explores next start target later := by
  rcases explores with ⟨visited, pending, begins, closed, missed⟩
  rcases step_eq_inr goesOn with ⟨current, rest, isPending, notTarget, ⟨known, rfl⟩ | ⟨-, rfl⟩⟩
  · have kept : ∀ other, other ∈ state.visited ∨ other ∈ state.pending →
        other ∈ state.visited ∨ other ∈ rest := by
      intro other found
      rw [isPending, List.mem_cons] at found
      rcases found with isVisited | rfl | later
      · exact Or.inl isVisited
      · exact Or.inl known
      · exact Or.inr later
    refine ⟨visited, ?_, kept start begins, ?_, missed⟩
    · intro other isRest
      exact pending other (isPending ▸ List.mem_cons_of_mem current isRest)
    · intro source isVisited other edge
      exact kept other (closed source isVisited other edge)
  · have reached : Closure.Reaches next start current :=
      pending current (isPending ▸ List.mem_cons_self)
    have kept : ∀ other, other ∈ state.visited ∨ other ∈ state.pending →
        other ∈ current :: state.visited ∨ other ∈ (next current).reverse ++ rest := by
      intro other found
      rw [isPending, List.mem_cons] at found
      rcases found with isVisited | rfl | later
      · exact Or.inl (List.mem_cons_of_mem current isVisited)
      · exact Or.inl List.mem_cons_self
      · exact Or.inr (List.mem_append_right _ later)
    refine ⟨List.forall_mem_cons.2 ⟨reached, visited⟩, ?_, kept start begins, ?_, ?_⟩
    · intro other isPendingLater
      rcases List.mem_append.1 isPendingLater with isNeighbour | isRest
      · exact reached.trans (.step (List.mem_reverse.1 isNeighbour) (.refl other))
      · exact pending other (isPending ▸ List.mem_cons_of_mem current isRest)
    · intro source isVisited other edge
      rcases List.mem_cons.1 isVisited with rfl | earlier
      · exact Or.inr (List.mem_append_left _ (List.mem_reverse.2 edge))
      · exact kept other (closed source earlier other edge)
    · simp [missed, Ne.symm notTarget]

/-- The answer of a search that is over says whether the target is reached. -/
theorem answer_iff (explores : Explores next start target state) {answer : Bool}
    (isOver : Worklist.step next target state = .inl answer) :
    answer = true ↔ Closure.Reaches next start target := by
  rcases step_eq_inl isOver with ⟨isEmpty, rfl⟩ | ⟨rest, isPending, rfl⟩
  · have unreached : ¬Closure.Reaches next start target :=
      fun path => explores.missed (explores.mem_visited isEmpty path)
    simp [unreached]
  · simp [explores.pending target (isPending ▸ List.mem_cons_self)]

/-- With more steps than there is work left the search answers whether the target is reached. -/
theorem exists_run (explores : Explores next start target state)
    (finite : ∀ other, Closure.Reaches next start other → other ∈ graph) {steps : Nat}
    (enough : work next graph state < steps) :
    ∃ answer, run next target steps state = some answer ∧
      (answer = true ↔ Closure.Reaches next start target) := by
  induction steps generalizing state with
  | zero => omega
  | succ steps ih =>
      cases outcome : Worklist.step next target state with
      | inl answer => exact ⟨answer, by simp [run, outcome], explores.answer_iff outcome⟩
      | inr later =>
          have less := work_lt_of_step (fun other isPending =>
            finite other (explores.pending other isPending)) outcome
          rcases ih (explores.step outcome) (by omega) with ⟨answer, isAnswer, decides⟩
          exact ⟨answer, by simp [run, outcome, isAnswer], decides⟩

end Explores

theorem work_initial (next : element → List element) (graph : List element) (start : element) :
    work next graph (initial start) = (graph.flatMap next).length + 1 := by
  have isOwed : owed next [] = next := by
    funext other
    simp [owed]
  rw [work, initial, isOwed, List.length_singleton, Nat.add_comm]

end

end Worklist

namespace Catalog

variable {catalog : Catalog}

/-- The search decides ancestry on every catalog, whatever its cycles, in `searchSteps` steps. -/
theorem exists_searchAncestor (catalog : Catalog) (ancestor named : ClassName) {steps : Nat}
    (enough : catalog.searchSteps named ≤ steps) :
    ∃ answer, catalog.searchAncestor ancestor named steps = some answer ∧
      (answer = true ↔ catalog.Reaches named ancestor) := by
  have work := Worklist.work_initial catalog.erasedSupertypes (catalog.ancestors named) named
  have finite : ∀ other, catalog.Reaches named other → other ∈ catalog.ancestors named :=
    fun other path => mem_ancestors_iff.2 path
  refine (Worklist.explores_initial named ancestor).exists_run finite ?_
  simp only [searchSteps] at enough
  omega

/--
For reference types that are not both arrays, and a target other than `java.lang.Object`, the search
for the target among the ancestors of the source ends on every loaded catalog, and assignability is
its answer: the target is reached from the source over the erasures of supertypes.
-/
theorem searchAncestor_eq_classAssignable (loaded : catalog.IsLoaded) (target source : ClassName)
    (targetReference : target.isPrimitive = false) (sourceReference : source.isPrimitive = false)
    (notArrays : ¬(target.isArray = true ∧ source.isArray = true)) (notObject : target ≠ .object) :
    (∀ steps, catalog.searchSteps source ≤ steps →
        catalog.searchAncestor target source steps = some (catalog.classAssignable target source)) ∧
      (catalog.classAssignable target source = true ↔ catalog.Reaches source target) := by
  have decides : catalog.classAssignable target source = true ↔ catalog.Reaches source target :=
    loaded.hasLinkedSupertypes.classAssignable_iff_reaches sourceReference targetReference notObject
      fun arrays => notArrays arrays.symm
  refine ⟨?_, decides⟩
  intro steps enough
  rcases catalog.exists_searchAncestor target source enough with ⟨answer, isAnswer, answers⟩
  rw [isAnswer, Option.some_inj, Bool.eq_iff_iff, answers, decides]

/-- Interfaces that extend each other and themselves, and one apart from them. -/
def twilightDocument : Document where
  classes := [
    { name := "java.lang.Object" },
    { name := "a.Day", kind := .interface, interfaces := ["Night"] },
    { name := "a.Night", kind := .interface, interfaces := ["Night", "Day"] },
    { name := "a.Star", kind := .interface },
    { name := "a.Dusk", interfaces := ["Day", "Night"] }]

/-- The catalog of these classes. -/
def twilight : Catalog := (Catalog.empty.extend twilightDocument).toOption.getD .empty

theorem isLoaded_twilight : twilight.IsLoaded := isLoaded_getD twilightDocument

/-- From dusk the search comes to the night over the day, and ends without having met a star. -/
theorem searchAncestor_dusk :
    twilight.Extends (.plain "a.Night") (.plain "a.Night") ∧
      twilight.searchAncestor (.plain "a.Night") (.plain "a.Dusk") 8 = some true ∧
      twilight.Reaches (.plain "a.Dusk") (.plain "a.Night") ∧
      twilight.searchAncestor (.plain "a.Star") (.plain "a.Dusk") 8 = some false ∧
      ¬twilight.Reaches (.plain "a.Dusk") (.plain "a.Star") := by
  have edge : twilight.Extends (.plain "a.Night") (.plain "a.Night") := by
    unfold Extends
    decide +kernel
  have enough : twilight.searchSteps (.plain "a.Dusk") ≤ 8 := by decide +kernel
  have isNight : twilight.classAssignable (.plain "a.Night") (.plain "a.Dusk") = true := by
    decide +kernel
  have isNoStar : twilight.classAssignable (.plain "a.Star") (.plain "a.Dusk") = false := by
    decide +kernel
  rcases searchAncestor_eq_classAssignable isLoaded_twilight (.plain "a.Night")
    (.plain "a.Dusk") (by decide) (by decide) (by decide) (by decide) with
    ⟨findsNight, nightReached⟩
  rcases searchAncestor_eq_classAssignable isLoaded_twilight (.plain "a.Star")
    (.plain "a.Dusk") (by decide) (by decide) (by decide) (by decide) with
    ⟨findsStar, starReached⟩
  refine ⟨edge, ?_, nightReached.1 isNight, ?_, ?_⟩
  · rw [findsNight 8 enough, isNight]
  · rw [findsStar 8 enough, isNoStar]
  · rw [← starReached, isNoStar]
    decide

end Catalog

end NominalTypes
