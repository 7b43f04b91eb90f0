/-!
# The elements reachable in a finite graph

`closure` collects what can be reached from a list of elements over the edges of a graph, round by
round: each round follows the edges of the elements that the round before found. It ends when a
round finds nothing new, or when the rounds are used up. Where the graph has at most as many
elements beyond the given ones as there are rounds, all that can be reached is found.
-/

namespace NominalTypes

namespace Closure

/-- The candidates that are not seen yet, each once. -/
def unseen {element : Type} [DecidableEq element] (seen : List element) :
    List element → List element
  | [] => []
  | candidate :: rest =>
      if candidate ∈ seen then unseen seen rest
      else candidate :: unseen (candidate :: seen) rest

/-- The seen elements with all that is reached from the frontier in the given number of rounds. -/
def collect {element : Type} [DecidableEq element] (next : element → List element) :
    Nat → List element → List element → List element
  | 0, seen, _ => seen
  | rounds + 1, seen, frontier =>
      match unseen seen (frontier.flatMap next) with
      | [] => seen
      | fresh :: others => collect next rounds (seen ++ fresh :: others) (fresh :: others)

/-- The other element is reached from the first one over zero or more edges. -/
inductive Reaches {element : Type} (next : element → List element) : element → element → Prop where
  | refl (start : element) : Reaches next start start
  | step {start middle target : element} (edge : middle ∈ next start)
      (path : Reaches next middle target) : Reaches next start target

theorem Reaches.trans {element : Type} {next : element → List element}
    {first second third : element} (left : Reaches next first second)
    (right : Reaches next second third) : Reaches next first third := by
  induction left with
  | refl => exact right
  | step edge _ ih => exact .step edge (ih right)

section

variable {element : Type} [DecidableEq element]

theorem mem_unseen {seen candidates : List element} {candidate : element} :
    candidate ∈ unseen seen candidates ↔ candidate ∈ candidates ∧ candidate ∉ seen := by
  induction candidates generalizing seen with
  | nil => simp [unseen]
  | cons first rest ih =>
      by_cases known : first ∈ seen
      · simp only [unseen, known, if_true, ih, List.mem_cons]
        constructor
        · rintro ⟨member, fresh⟩
          exact ⟨Or.inr member, fresh⟩
        · rintro ⟨rfl | member, fresh⟩
          · exact absurd known fresh
          · exact ⟨member, fresh⟩
      · simp only [unseen, known, if_false, List.mem_cons, ih, not_or]
        constructor
        · rintro (rfl | ⟨member, _, fresh⟩)
          · exact ⟨Or.inl rfl, known⟩
          · exact ⟨Or.inr member, fresh⟩
        · rintro ⟨rfl | member, fresh⟩
          · exact Or.inl rfl
          · by_cases same : candidate = first
            · exact Or.inl same
            · exact Or.inr ⟨member, same, fresh⟩

theorem mem_collect_of_mem_seen {next : element → List element} {rounds : Nat}
    {seen frontier : List element} {target : element} (member : target ∈ seen) :
    target ∈ collect next rounds seen frontier := by
  induction rounds generalizing seen frontier with
  | zero => exact member
  | succ rounds ih =>
      unfold collect
      split
      · exact member
      · exact ih (List.mem_append_left _ member)

/-- What is collected is reached from the start if that holds of what the collection begins with. -/
theorem reaches_of_mem_collect {next : element → List element} {start : element} {rounds : Nat}
    {seen frontier : List element} (known : ∀ target ∈ seen, Reaches next start target)
    (within : ∀ target ∈ frontier, target ∈ seen) {target : element}
    (member : target ∈ collect next rounds seen frontier) : Reaches next start target := by
  induction rounds generalizing seen frontier with
  | zero => exact known target member
  | succ rounds ih =>
      unfold collect at member
      split at member
      · exact known target member
      · next fresh others found =>
        refine ih ?_ (fun other isFresh => List.mem_append_right _ isFresh) member
        intro other isSeen
        rcases List.mem_append.1 isSeen with old | isFresh
        · exact known other old
        · rw [← found] at isFresh
          obtain ⟨source, inFrontier, edge⟩ := List.mem_flatMap.1 (mem_unseen.1 isFresh).1
          exact (known source (within source inFrontier)).trans (.step edge (.refl other))

theorem filter_unseen_lt {carrier seen fresh : List element} {first : element}
    (inCarrier : first ∈ carrier) (isNew : first ∉ seen) (isFresh : first ∈ fresh) :
    (carrier.filter fun other => other ∉ seen ++ fresh).length <
      (carrier.filter fun other => other ∉ seen).length := by
  have smaller : (carrier.filter fun other => other ∉ seen ++ fresh) =
      (carrier.filter fun other => other ∉ seen).filter fun other => other ∉ fresh := by
    rw [List.filter_filter]
    congr 1
    funext other
    simp [Bool.and_comm]
  rw [smaller]
  refine List.length_filter_lt_length_iff_exists.2 ⟨first, ?_, ?_⟩
  · simp [inCarrier, isNew]
  · simp [isFresh]

/-- With enough rounds for a carrier of the edges, what is collected is closed under the edges. -/
theorem collect_closed {next : element → List element} {carrier : List element}
    (bounded : ∀ source, ∀ target ∈ next source, target ∈ carrier) {rounds : Nat}
    {seen frontier : List element}
    (followed : ∀ source ∈ seen, source ∈ frontier ∨ ∀ target ∈ next source, target ∈ seen)
    (enough : (carrier.filter fun other => other ∉ seen).length < rounds)
    {source target : element} (member : source ∈ collect next rounds seen frontier)
    (edge : target ∈ next source) : target ∈ collect next rounds seen frontier := by
  induction rounds generalizing seen frontier with
  | zero => omega
  | succ rounds ih =>
      unfold collect at member ⊢
      split at member
      · next nothing =>
        rcases followed source member with inFrontier | inside
        · apply Classical.byContradiction
          intro isNew
          have fresh : target ∈ unseen seen (frontier.flatMap next) :=
            mem_unseen.2 ⟨List.mem_flatMap.2 ⟨source, inFrontier, edge⟩, isNew⟩
          rw [nothing] at fresh
          cases fresh
        · exact inside target edge
      · next fresh others found =>
        refine ih ?_ ?_ member
        · intro other isSeen
          rcases List.mem_append.1 isSeen with old | isFresh
          · right
            intro reached otherEdge
            rcases followed other old with inFrontier | inside
            · by_cases isKnown : reached ∈ seen
              · exact List.mem_append_left _ isKnown
              · refine List.mem_append_right _ ?_
                rw [← found]
                exact mem_unseen.2 ⟨List.mem_flatMap.2 ⟨other, inFrontier, otherEdge⟩, isKnown⟩
            · exact List.mem_append_left _ (inside reached otherEdge)
          · exact Or.inl isFresh
        · have first : fresh ∈ unseen seen (frontier.flatMap next) := by
            rw [found]
            exact List.mem_cons_self
          obtain ⟨candidate, isNew⟩ := mem_unseen.1 first
          obtain ⟨origin, _, originEdge⟩ := List.mem_flatMap.1 candidate
          have fewer := filter_unseen_lt (bounded origin fresh originEdge) isNew
            (List.mem_cons_self (a := fresh) (l := others))
          omega

end

end Closure

/-- The elements reached from an element over zero or more edges, in at most the given rounds. -/
def closure {element : Type} [DecidableEq element] (next : element → List element) (rounds : Nat)
    (start : element) : List element :=
  Closure.collect next rounds [start] [start]

/-- With a round for each element of a carrier of the edges, the closure is what is reached. -/
theorem mem_closure_iff {element : Type} [DecidableEq element] {next : element → List element}
    {carrier : List element} (bounded : ∀ source, ∀ target ∈ next source, target ∈ carrier)
    {rounds : Nat} (enough : carrier.length < rounds) {start target : element} :
    target ∈ closure next rounds start ↔ Closure.Reaches next start target := by
  constructor
  · refine Closure.reaches_of_mem_collect ?_ (fun _ member => member)
    intro other isStart
    cases List.mem_singleton.1 isStart
    exact .refl start
  · intro path
    have begins : start ∈ closure next rounds start :=
      Closure.mem_collect_of_mem_seen (List.mem_singleton.2 rfl)
    have follows : ∀ {source other : element}, Closure.Reaches next source other →
        source ∈ closure next rounds start → other ∈ closure next rounds start := by
      intro source other path
      induction path with
      | refl => exact id
      | step edge _ ih =>
          intro member
          refine ih (Closure.collect_closed bounded ?_ ?_ member edge)
          · intro other isStart
            exact Or.inl isStart
          · exact Nat.lt_of_le_of_lt (List.length_filter_le _ _) enough
    exact follows path begins

end NominalTypes
