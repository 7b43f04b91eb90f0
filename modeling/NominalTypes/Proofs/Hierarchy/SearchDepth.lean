import NominalTypes.Proofs.Hierarchy.Comparison
import NominalTypes.Proofs.Hierarchy.Search

/-!
# The depth of the search is enough

Whether a search finds the ancestor, finds nothing or does not end is the same for all bindings, since
they never change the class that a supertype names. So a search only asks, class by class, whether
something is found there, and the classes that it can come to are the erasures of supertypes. The
limit of its depth is above their number. An answer of any depth is thus the answer that resolution
gives, on cyclic graphs too, and resolution fails just if no depth has an answer.
-/

namespace NominalTypes

/-- Whether something was found, if the search has ended. -/
def searchOutcome (result : Except TypeError (Option Ty)) : Option Bool :=
  result.toOption.map Option.isSome

section

variable {item : Type} {find : item → Except TypeError (Option Ty)} {items : List item}

/-- Whether something is found first is asked of the items one after the other. -/
theorem searchOutcome_firstFound {test : item → Option Bool}
    (each : ∀ item ∈ items, searchOutcome (find item) = test item) :
    searchOutcome (firstFound find items) = anyAnswer test items := by
  induction items with
  | nil => rfl
  | cons first rest ih =>
      rcases List.forall_mem_cons.1 each with ⟨isFirst, others⟩
      simp only [firstFound, anyAnswer]
      rw [← isFirst, ← ih others]
      cases find first with
      | error cause => rfl
      | ok found => cases found <;> rfl

theorem firstFound_congr {other : item → Except TypeError (Option Ty)}
    (each : ∀ item ∈ items, other item = find item) :
    firstFound other items = firstFound find items := by
  induction items with
  | nil => rfl
  | cons first rest ih =>
      rcases List.forall_mem_cons.1 each with ⟨isFirst, others⟩
      simp only [firstFound]
      rw [isFirst, ih others]

theorem exists_of_firstFound_eq_error {cause : TypeError}
    (failed : firstFound find items = .error cause) : ∃ item ∈ items, find item = .error cause := by
  induction items with
  | nil => cases failed
  | cons first rest ih =>
      simp only [firstFound] at failed
      split at failed
      · rcases ih failed with ⟨item, member, isItem⟩
        exact ⟨item, List.mem_cons_of_mem _ member, isItem⟩
      · exact ⟨first, List.mem_cons_self, failed⟩

end

namespace Catalog

variable {catalog : Catalog} {named ancestor : ClassName} {bindings : Bindings}

/-- What the search for the ancestor comes to at a class, from what it comes to one step further. -/
def searchStep (self : Catalog) (ancestor : ClassName) (answers : ClassName → Option Bool)
    (named : ClassName) : Option Bool :=
  anyAnswer
    (fun supertype =>
      match supertypeClass? supertype with
      | some raw => if raw = ancestor then some true else answers raw
      | none => some false)
    (self.supertypes named)

/-- What the search comes to within a depth, without regard to any bindings. -/
def searchRounds (self : Catalog) (ancestor : ClassName) : Nat → ClassName → Option Bool
  | 0, _ => none
  | depth + 1, named => self.searchStep ancestor (self.searchRounds ancestor depth) named

/-- Within each depth the search finds something for all bindings or for none. -/
theorem HasLinkedSupertypes.searchOutcome_findSupertype (linked : catalog.HasLinkedSupertypes)
    (depth : Nat) :
    searchOutcome (catalog.findSupertype ancestor depth named bindings) =
      catalog.searchRounds ancestor depth named := by
  induction depth generalizing named bindings with
  | zero => rfl
  | succ depth ih =>
      rw [findSupertype_succ]
      apply searchOutcome_firstFound
      intro declared isDeclared
      rcases linked.exists_erase isDeclared with ⟨raw, isClass, -⟩
      simp only [searchAt_of_supertypeClass? isClass, isClass]
      split
      · rfl
      · exact ih

/-- The classes that a search which starts at the class can come to. -/
def searchCarrier (self : Catalog) (named : ClassName) : Finset ClassName :=
  (named :: self.erasedCarrier).toFinset

/-- The depth of the search is no less than the number of classes it can come to. -/
theorem card_searchCarrier_le (self : Catalog) (named : ClassName) :
    (self.searchCarrier named).card ≤ self.searchDepth := by
  have distinct := List.toFinset_card_le (named :: self.erasedCarrier)
  have bounded := self.length_erasedCarrier_le
  rw [List.length_cons] at distinct
  simp only [searchCarrier, searchDepth]
  omega

/-- A step of the search keeps all answers when more classes have one. -/
theorem HasLinkedSupertypes.searchStep_mono (linked : catalog.HasLinkedSupertypes)
    (start : ClassName) (less more : ClassName → Option Bool)
    (below : Rounds.IsBelow (catalog.searchCarrier start) less more) :
    Rounds.IsBelow (catalog.searchCarrier start) (catalog.searchStep ancestor less)
      (catalog.searchStep ancestor more) := by
  intro asked _ answer given
  refine anyAnswer_mono ?_ given
  intro supertype isSupertype found isFound
  rcases linked.exists_erase isSupertype with ⟨raw, isClass, edge, -⟩
  simp only [isClass] at isFound ⊢
  split at isFound
  · next isAncestor => rwa [if_pos isAncestor]
  · next different =>
    rw [if_neg different]
    have inCarrier : raw ∈ catalog.searchCarrier start :=
      List.mem_toFinset.2 (List.mem_cons_of_mem _ edge.mem_erasedCarrier)
    exact below raw inCarrier found isFound

/-- A search that ends in some depth ends in that of the resolution. -/
theorem HasLinkedSupertypes.exists_findSupertype_searchDepth (linked : catalog.HasLinkedSupertypes)
    {depth : Nat} {found : Option Ty}
    (isFound : catalog.findSupertype ancestor depth named bindings = .ok found) :
    ∃ other, catalog.findSupertype ancestor catalog.searchDepth named bindings = .ok other := by
  have answered : ∀ depth, searchOutcome (catalog.findSupertype ancestor depth named bindings) =
      catalog.searchRounds ancestor depth named :=
    linked.searchOutcome_findSupertype
  have settled : catalog.searchRounds ancestor (catalog.searchCarrier named).card named =
      some found.isSome := by
    apply Rounds.isBelow_card (fun _ => rfl) (fun _ => rfl) (linked.searchStep_mono named) depth
    · exact List.mem_toFinset.2 List.mem_cons_self
    · rw [← answered depth, isFound]
      rfl
  rw [← answered] at settled
  cases ended : catalog.findSupertype ancestor (catalog.searchCarrier named).card named bindings with
  | error cause =>
      rw [ended] at settled
      cases settled
  | ok other => exact ⟨other, findSupertype_of_le (catalog.card_searchCarrier_le named) ended⟩

/-- The search has the answer that any greater or smaller depth gives. -/
theorem HasLinkedSupertypes.findSupertype_eq_ok_iff (linked : catalog.HasLinkedSupertypes)
    {found : Option Ty} :
    catalog.findSupertype ancestor catalog.searchDepth named bindings = .ok found ↔
      ∃ depth, catalog.findSupertype ancestor depth named bindings = .ok found := by
  constructor
  · intro isFound
    exact ⟨_, isFound⟩
  · rintro ⟨depth, isFound⟩
    rcases linked.exists_findSupertype_searchDepth isFound with ⟨other, isOther⟩
    have deeper := findSupertype_of_le (Nat.le_max_left depth catalog.searchDepth) isFound
    rw [findSupertype_of_le (Nat.le_max_right depth catalog.searchDepth) isOther] at deeper
    rw [isOther, deeper]

/-- The search never fails for another reason than that it does not end. -/
theorem findSupertype_eq_error {depth : Nat} {cause : TypeError}
    (failed : catalog.findSupertype ancestor depth named bindings = .error cause) :
    cause = .endless := by
  induction depth generalizing named bindings with
  | zero =>
      cases failed
      rfl
  | succ depth ih =>
      rw [findSupertype_succ] at failed
      rcases exists_of_firstFound_eq_error failed with ⟨declared, -, failed⟩
      simp only [searchAt] at failed
      split at failed
      · cases failed
      · split at failed
        · cases failed
        · exact ih failed

end Catalog

end NominalTypes
